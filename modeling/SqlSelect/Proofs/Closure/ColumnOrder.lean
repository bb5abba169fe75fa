import Mathlib.Data.List.Basic
import SqlSelect.Proofs.Closure.Columns
import SqlSelect.Proofs.Prepared.Fault

/-!
# Columns in the order of the text

The columns of an expression stand in the order in which they are written.  Binding resolves
them in that order, so that its error is that of the first column of the text that does not
resolve; and what it puts in their places stays there, whatever it is bound against again.
-/

namespace SqlSelect

/-! ## Columns of what is written -/

/-- The column that a symbol is; those of a query in parentheses are not counted. -/
def Lexeme.columns : Lexeme → List ResolvedColumn
  | .column resolved => [resolved]
  | _ => []

theorem Lexeme.columns_skipsGlue : SkipsGlue columns := by
  intro lexeme glue
  cases lexeme <;> first | rfl | simp [isGlue] at glue

namespace Expr

/-- The columns of an expression are the one it is, or those of its parts in their order. -/
theorem columns_eq (expr : Expr) :
    expr.columns =
      match expr with
      | .column reference => [reference]
      | _ => (expr.parts .all).flatMap columns := by
  have of_parts (exprs : List Expr) :
      (exprs.flatMap leaves).filterMap Leaf.column? = exprs.flatMap columns := by
    rw [List.filterMap_flatMap]
    rfl
  cases expr with
  | window _ arguments partition order =>
      simp [columns, leaves, parts, WindowClauses.all, listLeaves_eq, orderLeaves_eq,
        ← of_parts]
  | case branches otherwise =>
      simp [columns, leaves, parts, branchLeaves_eq, optionLeaves_eq, ← of_parts]
  | _ => simp [columns, leaves, parts, listLeaves_eq, Leaf.column?, ← of_parts]

/-- The columns of an expression that can be written, in a dialect that leaves out no list of
a window, are those among its symbols. -/
theorem columns_written {database : Database} (complete : database.dialect.windowClauses = .all)
    {expr : Expr} (writable : Lexeme.Writable database.dialect (expr.lexemes database)) :
    expr.columns = ((expr.lexemes database).flatMap Lexeme.columns).map .resolved := by
  rw [Lexeme.writable_iff] at writable
  change expr.faults false database = [] at writable
  induction expr using induction_on_parts with
  | step expr ih =>
      rw [faults_eq, complete] at writable
      rw [flatMap_lexemes database Lexeme.columns_skipsGlue, complete]
      cases refused : expr.refusal? database.dialect with
      | some error =>
          rw [refused] at writable
          cases writable
      | none =>
          rw [refused] at writable
          obtain ⟨fine, _⟩ := List.append_eq_nil_iff.mp writable
          have of_parts : (expr.parts .all).flatMap columns =
              ((expr.parts .all).flatMap fun part =>
                (part.lexemes database).flatMap Lexeme.columns).map .resolved := by
            rw [List.map_flatMap]
            apply List.flatMap_congr
            intro part member
            exact ih part member (List.flatMap_eq_nil_iff.mp fine part member)
          have no_query : (expr.query?.toList.flatMap fun query =>
              Lexeme.columns (.query (query.lexemes database))) = [] := by
            cases expr.query? <;> rfl
          simp only [no_query, List.append_nil, List.map_append, ← of_parts]
          rw [columns_eq]
          -- Only a column is a symbol with a column; what is left comes from the parts.
          cases expr with
          | column reference =>
              cases reference with
              | resolved _ => rfl
              | unresolved _ _ => cases refused
          | literal value =>
              simp only [leafLexeme?]
              split <;> rfl
          | _ => rfl

/-! ## Binding -/

variable {scope : Scope} {expr bound : Expr}

/-- A bound expression has no columns left to resolve. -/
theorem resolved_of_bind (binds : expr.bind scope = .ok bound) :
    ∀ reference ∈ bound.columns, ∃ column, reference = .resolved column := by
  obtain ⟨resolves, rfl⟩ := bind_eq_ok_iff.mp binds
  rw [columns_mapColumns]
  intro settled member
  obtain ⟨reference, known, rfl⟩ := List.mem_map.mp member
  obtain ⟨column, resolved⟩ := resolves reference known
  exact ⟨column, ColumnReference.settle_of_resolve resolved⟩

/-- An expression without columns to resolve is bound already. -/
theorem bind_of_resolved
    (resolved : ∀ reference ∈ expr.columns, ∃ column, reference = .resolved column) :
    expr.bind scope = .ok expr := by
  rw [bind_eq_ok_iff]
  constructor
  · intro reference member
    obtain ⟨column, rfl⟩ := resolved reference member
    exact ⟨column, rfl⟩
  · symm
    apply mapColumns_of_fixed
    intro reference member
    obtain ⟨column, rfl⟩ := resolved reference (mem_columns.mpr member)
    rfl

/-- What binding makes of an expression. -/
structure BindsColumns (scope : Scope) (expr : Expr) : Prop where
  /-- It succeeds if every column outside the sub-queries resolves, and only then. -/
  succeeds : (∃ bound, expr.bind scope = .ok bound) ↔
    ∀ reference ∈ expr.columns, ∃ column, reference.resolve scope = .ok column
  /-- Each of those columns is replaced by what it resolves to, and nothing else changes. -/
  replaces : ∀ bound, expr.bind scope = .ok bound →
    bound = expr.mapColumns (·.settle scope) ∧
      ∀ reference ∈ expr.columns,
        (reference.resolve scope).map .resolved = .ok (reference.settle scope)
  /-- What is bound stays as it is, in whatever scope it is bound again. -/
  again : ∀ bound, expr.bind scope = .ok bound → ∀ other : Scope, bound.bind other = .ok bound
  /-- The error is that of the first column that does not resolve. -/
  fails : ∀ error, expr.bind scope = .error error ↔
    ∃ before reference after, expr.columns = before ++ reference :: after ∧
      (∀ earlier ∈ before, ∃ column, earlier.resolve scope = .ok column) ∧
        reference.resolve scope = .error error
  /-- The columns stand in the order of the text: so they are written, whatever they are
  taken to be, wherever no list of a window is left out. -/
  order : ∀ (choice : ColumnReference → ResolvedColumn) (database : Database),
    database.dialect.windowClauses = .all →
      ∀ chosen, chosen = expr.mapColumns (.resolved ∘ choice) →
        Lexeme.Writable database.dialect (chosen.lexemes database) →
          (chosen.lexemes database).flatMap Lexeme.columns = expr.columns.map choice

theorem binds_columns (scope : Scope) (expr : Expr) : BindsColumns scope expr := by
  constructor
  case succeeds =>
    constructor
    · rintro ⟨bound, binds⟩
      exact (bind_eq_ok_iff.mp binds).1
    · exact fun resolves => ⟨_, bind_eq_ok_iff.mpr ⟨resolves, rfl⟩⟩
  case replaces =>
    intro bound binds
    obtain ⟨resolves, replaced⟩ := bind_eq_ok_iff.mp binds
    refine ⟨replaced, ?_⟩
    intro reference member
    obtain ⟨column, resolved⟩ := resolves reference member
    rw [ColumnReference.settle_of_resolve resolved, resolved]
    rfl
  case again =>
    intro bound binds other
    exact bind_of_resolved (resolved_of_bind binds)
  case fails =>
    intro error
    rw [← mapM_eq_error_iff, bind_eq]
    cases expr.columns.mapM (ColumnReference.resolve scope) <;> simp [Except.map]
  case order =>
    rintro choice database complete _ rfl writable
    have resolved : Function.Injective ColumnReference.resolved := by
      intro left right same
      cases same
      rfl
    have columns := columns_written complete writable
    rw [columns_mapColumns, ← List.map_map] at columns
    exact (List.map_injective_iff.mpr resolved columns).symm

end Expr

end SqlSelect
