import SqlSelect.Proofs.Closure.Columns

/-!
# What binding leaves

A term is assembled with columns that are still open, and with the queries of the
statements in it.  Binding resolves the columns to aliases in sight that expose them,
and leaves the queries as they are.
-/

namespace SqlSelect

namespace Scope

theorem mem_nearestCandidates {column : ColumnInfo} {hint : Hint} {levels : List (List Alias)}
    {handle : Alias} (member : handle ∈ nearestCandidates column hint levels) :
    handle ∈ levels.flatten ∧ handle.exposes column = true := by
  induction levels with
  | nil => cases member
  | cons level rest ih =>
      rw [nearestCandidates] at member
      split at member
      · rcases ih member with ⟨visible, exposes⟩
        exact ⟨List.mem_append_right level visible, exposes⟩
      · simp only [candidates, List.mem_filter, Bool.and_eq_true] at member
        exact ⟨List.mem_append_left _ member.1, member.2.2⟩

theorem resolve_visible {scope : Scope} {column : ColumnInfo} {hint : Hint}
    {resolved : ResolvedColumn} (resolves : scope.resolve column hint = .ok resolved) :
    resolved.alias ∈ scope.visible ∧ resolved.alias.exposes resolved.column = true := by
  rw [resolve] at resolves
  split at resolves
  · cases resolves
  · rename_i handle found
    cases resolves
    apply mem_nearestCandidates
    rw [found]
    exact List.mem_singleton.mpr rfl
  · cases resolves

end Scope

/-! ## Binding -/

namespace Leaf

/-- Bind a leaf: a column is resolved, a query stays what it is. -/
def bind (scope : Scope) : Leaf → Except QueryError Leaf
  | .column reference => do return .column (.resolved (← reference.resolve scope))
  | .query nested => .ok (.query nested)

/-- Every leaf of the result is a bound leaf of the original. -/
def Bound (scope : Scope) (originals results : List Leaf) : Prop :=
  ∀ leaf ∈ results, ∃ original ∈ originals, original.bind scope = .ok leaf

end Leaf

theorem Expr.bind_leaves {scope : Scope} (expr : Expr) {bound : Expr}
    (binds : expr.bind scope = .ok bound) : Leaf.Bound scope expr.leaves bound.leaves := by
  obtain ⟨resolves, rfl⟩ := bind_eq_ok_iff.mp binds
  rw [leaves_mapColumns]
  intro leaf member
  obtain ⟨original, known, rfl⟩ := List.mem_map.mp member
  refine ⟨original, known, ?_⟩
  cases original with
  | query _ => rfl
  | column reference =>
      obtain ⟨column, resolved⟩ := resolves reference (mem_columns.mpr known)
      rw [Leaf.bind, resolved, Leaf.mapColumn, ColumnReference.settle_of_resolve resolved]
      rfl

/-! ## Assembling -/

namespace Leaf

/-- A leaf of an assembled term: a column that is still open, or the query of one of the
statements in the term. -/
def From (selects : List Select) : Leaf → Prop
  | .column reference => ∃ column hint, reference = .unresolved column hint
  | .query nested => ∃ select ∈ selects, select.result = .ok nested

/-- All leaves are those of an assembled term. -/
def AllFrom (selects : List Select) (leaves : List Leaf) : Prop :=
  ∀ leaf ∈ leaves, leaf.From selects

variable {left right : List Select} {leftLeaves rightLeaves : List Leaf}

theorem From.mono {leaf : Leaf} (origin : leaf.From left)
    (subset : ∀ select ∈ left, select ∈ right) : leaf.From right := by
  cases leaf with
  | column _ => exact origin
  | query _ =>
      rcases origin with ⟨select, member, finished⟩
      exact ⟨select, subset select member, finished⟩

theorem allFrom_nil : AllFrom left [] := by
  intro leaf member
  cases member

theorem allFrom_query {select : Select} {nested : Query}
    (finished : select.result = .ok nested) : AllFrom [select] [.query nested] := by
  intro leaf member
  cases List.mem_singleton.mp member
  exact ⟨select, List.mem_singleton.mpr rfl, finished⟩

theorem AllFrom.append (first : AllFrom left leftLeaves) (second : AllFrom right rightLeaves) :
    AllFrom (left ++ right) (leftLeaves ++ rightLeaves) := by
  intro leaf member
  rcases List.mem_append.mp member with member | member
  · exact (first leaf member).mono fun _ known => List.mem_append_left right known
  · exact (second leaf member).mono fun _ known => List.mem_append_right left known

end Leaf

open Leaf in
mutual

theorem Term.assemble_leaves (term : Term) {expr : Expr} (assembles : term.assemble = .ok expr) :
    AllFrom term.selects expr.leaves := by
  cases term with
  | column table member hint =>
      cases assembles
      intro leaf known
      cases List.mem_singleton.mp known
      exact ⟨_, _, rfl⟩
  | value _ =>
      cases assembles
      exact allFrom_nil
  | literal _ =>
      cases assembles
      exact allFrom_nil
  | countAll =>
      cases assembles
      exact allFrom_nil
  | optional _ scalar =>
      cases scalar <;> cases assembles <;> exact allFrom_nil
  | not operand =>
      simp only [Term.assemble, except_bind_ok, except_pure_ok] at assembles
      rcases assembles with ⟨_, operandAssembles, rfl⟩
      have operandFrom := operand.assemble_leaves operandAssembles
      exact operandFrom
  | negate operand =>
      simp only [Term.assemble, except_bind_ok, except_pure_ok] at assembles
      rcases assembles with ⟨_, operandAssembles, rfl⟩
      have operandFrom := operand.assemble_leaves operandAssembles
      exact operandFrom
  | isNull _ operand =>
      simp only [Term.assemble, except_bind_ok, except_pure_ok] at assembles
      rcases assembles with ⟨_, operandAssembles, rfl⟩
      have operandFrom := operand.assemble_leaves operandAssembles
      exact operandFrom
  | cast operand _ _ =>
      simp only [Term.assemble, except_bind_ok, except_pure_ok] at assembles
      rcases assembles with ⟨_, operandAssembles, rfl⟩
      have operandFrom := operand.assemble_leaves operandAssembles
      exact operandFrom
  | nullable operand =>
      have operandFrom := operand.assemble_leaves assembles
      exact operandFrom
  | binary _ left right =>
      simp only [Term.assemble, except_bind_ok, except_pure_ok] at assembles
      rcases assembles with ⟨_, leftAssembles, _, rightAssembles, rfl⟩
      exact (left.assemble_leaves leftAssembles).append (right.assemble_leaves rightAssembles)
  | between _ operand low high =>
      simp only [Term.assemble, except_bind_ok, except_pure_ok] at assembles
      rcases assembles with ⟨_, operandAssembles, _, lowAssembles, _, highAssembles, rfl⟩
      exact ((operand.assemble_leaves operandAssembles).append
        (low.assemble_leaves lowAssembles)).append (high.assemble_leaves highAssembles)
  | like _ operand pattern =>
      simp only [Term.assemble, except_bind_ok, except_pure_ok] at assembles
      rcases assembles with ⟨_, operandAssembles, _, patternAssembles, rfl⟩
      exact (operand.assemble_leaves operandAssembles).append
        (pattern.assemble_leaves patternAssembles)
  | inList _ operand items =>
      simp only [Term.assemble, except_bind_ok] at assembles
      rcases assembles with ⟨_, operandAssembles, _, itemsAssemble, rest⟩
      split at rest
      · cases rest
      · cases rest
        exact (operand.assemble_leaves operandAssembles).append
          (Term.assembleAll_leaves items itemsAssemble)
  | inSelect _ operand select =>
      simp only [Term.assemble, except_bind_ok, except_pure_ok] at assembles
      rcases assembles with ⟨_, operandAssembles, _, finished, rfl⟩
      exact (operand.assemble_leaves operandAssembles).append (allFrom_query finished)
  | «exists» _ select =>
      simp only [Term.assemble, except_bind_ok, except_pure_ok] at assembles
      rcases assembles with ⟨_, finished, rfl⟩
      exact allFrom_query finished
  | subquery select =>
      simp only [Term.assemble, except_bind_ok, except_pure_ok] at assembles
      rcases assembles with ⟨_, finished, rfl⟩
      exact allFrom_query finished
  | call _ _ arguments =>
      simp only [Term.assemble, except_bind_ok, except_pure_ok] at assembles
      rcases assembles with ⟨_, argumentsAssemble, rfl⟩
      have argumentsFrom := Term.assembleAll_leaves arguments argumentsAssemble
      exact argumentsFrom
  | window _ arguments partition order =>
      simp only [Term.assemble, except_bind_ok, except_pure_ok] at assembles
      rcases assembles with ⟨_, argumentsAssemble, _, partitionAssembles, _, orderAssembles, rfl⟩
      exact ((Term.assembleAll_leaves arguments argumentsAssemble).append
        (Term.assembleAll_leaves partition partitionAssembles)).append
        (Term.assembleOrder_leaves order orderAssembles)
  | case first rest otherwise =>
      cases first with
      | mk condition result =>
          simp only [Term.assemble, except_bind_ok, except_pure_ok] at assembles
          obtain ⟨_, conditionAssembles, _, resultAssembles, _, restAssembles,
            _, otherwiseAssembles, rfl⟩ := assembles
          exact (((condition.assemble_leaves conditionAssembles).append
            (result.assemble_leaves resultAssembles)).append
            (Term.assembleBranches_leaves rest restAssembles)).append
            (Term.assembleOption_leaves otherwise otherwiseAssembles)

theorem Term.assembleAll_leaves (terms : List Term) {exprs : List Expr}
    (assembles : Term.assembleAll terms = .ok exprs) :
    AllFrom (Term.listSelects terms) (Expr.listLeaves exprs) := by
  cases terms with
  | nil =>
      cases assembles
      exact allFrom_nil
  | cons term rest =>
      simp only [Term.assembleAll, except_bind_ok, except_pure_ok] at assembles
      rcases assembles with ⟨_, termAssembles, _, restAssembles, rfl⟩
      exact (term.assemble_leaves termAssembles).append (Term.assembleAll_leaves rest restAssembles)

theorem Term.assembleOrder_leaves (items : List (OrderItem Term)) {exprs : List (OrderItem Expr)}
    (assembles : Term.assembleOrder items = .ok exprs) :
    AllFrom (Term.orderSelects items) (Expr.orderLeaves exprs) := by
  cases items with
  | nil =>
      cases assembles
      exact allFrom_nil
  | cons item rest =>
      cases item with
      | mk term _ =>
          simp only [Term.assembleOrder, except_bind_ok, except_pure_ok] at assembles
          rcases assembles with ⟨_, termAssembles, _, restAssembles, rfl⟩
          exact (term.assemble_leaves termAssembles).append
            (Term.assembleOrder_leaves rest restAssembles)

theorem Term.assembleBranches_leaves (branches : List (Branch Term))
    {exprs : List (Branch Expr)} (assembles : Term.assembleBranches branches = .ok exprs) :
    AllFrom (Term.branchSelects branches) (Expr.branchLeaves exprs) := by
  cases branches with
  | nil =>
      cases assembles
      exact allFrom_nil
  | cons branch rest =>
      cases branch with
      | mk condition result =>
          simp only [Term.assembleBranches, except_bind_ok, except_pure_ok] at assembles
          rcases assembles with ⟨_, conditionAssembles, _, resultAssembles, _, restAssembles, rfl⟩
          exact ((condition.assemble_leaves conditionAssembles).append
            (result.assemble_leaves resultAssembles)).append
            (Term.assembleBranches_leaves rest restAssembles)

theorem Term.assembleOption_leaves (term : Option Term) {expr : Option Expr}
    (assembles : Term.assembleOption term = .ok expr) :
    AllFrom (Term.optionSelects term) (Expr.optionLeaves expr) := by
  cases term with
  | none =>
      cases assembles
      exact allFrom_nil
  | some term =>
      simp only [Term.assembleOption, except_bind_ok, except_pure_ok] at assembles
      rcases assembles with ⟨_, termAssembles, rfl⟩
      have termFrom := term.assemble_leaves termAssembles
      exact termFrom

end

end SqlSelect
