import SqlSelect.Proofs.Closure.Part

/-!
# The columns of an expression

The columns of an expression, outside its sub-queries, can be put in place one by one, and
nothing else changes.  Binding does no more than that: it resolves the columns from left to
right, and puts what each is bound to in its place.
-/

namespace SqlSelect

/-! ## Changing columns -/

section Change

variable (change : ColumnReference → ColumnReference)

mutual

/-- The expression with its columns, outside its sub-queries, changed. -/
def Expr.mapColumns : Expr → Expr
  | .argument value => .argument value
  | .literal value => .literal value
  | .column reference => .column (change reference)
  | .not operand => .not operand.mapColumns
  | .negate operand => .negate operand.mapColumns
  | .binary operator left right => .binary operator left.mapColumns right.mapColumns
  | .between negated operand low high =>
    .between negated operand.mapColumns low.mapColumns high.mapColumns
  | .like negated operand pattern => .like negated operand.mapColumns pattern.mapColumns
  | .inList negated operand items =>
    .inList negated operand.mapColumns (Expr.listMapColumns items)
  | .inQuery negated operand query => .inQuery negated operand.mapColumns query
  | .exists negated query => .exists negated query
  | .isNull negated operand => .isNull negated operand.mapColumns
  | .call function distinct arguments => .call function distinct (Expr.listMapColumns arguments)
  | .countAll => .countAll
  | .cast operand type => .cast operand.mapColumns type
  | .window function arguments partition order =>
    .window function (Expr.listMapColumns arguments) (Expr.listMapColumns partition)
      (Expr.orderMapColumns order)
  | .subquery query => .subquery query
  | .case branches otherwise =>
    .case (Expr.branchMapColumns branches) (Expr.optionMapColumns otherwise)

def Expr.listMapColumns : List Expr → List Expr
  | [] => []
  | expr :: rest => expr.mapColumns :: Expr.listMapColumns rest

def Expr.orderMapColumns : List (OrderItem Expr) → List (OrderItem Expr)
  | [] => []
  | ⟨expr, descending⟩ :: rest => ⟨expr.mapColumns, descending⟩ :: Expr.orderMapColumns rest

def Expr.branchMapColumns : List (Branch Expr) → List (Branch Expr)
  | [] => []
  | ⟨condition, result⟩ :: rest =>
    ⟨condition.mapColumns, result.mapColumns⟩ :: Expr.branchMapColumns rest

def Expr.optionMapColumns : Option Expr → Option Expr
  | none => none
  | some expr => some expr.mapColumns

end

/-- A leaf with its column changed. -/
def Leaf.mapColumn : Leaf → Leaf
  | .column reference => .column (change reference)
  | .query nested => .query nested

end Change

/-- The column that a leaf is. -/
def Leaf.column? : Leaf → Option ColumnReference
  | .column reference => some reference
  | .query _ => none

/-- The columns of an expression, outside its sub-queries, from left to right. -/
def Expr.columns (expr : Expr) : List ColumnReference :=
  expr.leaves.filterMap Leaf.column?

theorem Expr.mem_columns {expr : Expr} {reference : ColumnReference} :
    reference ∈ expr.columns ↔ .column reference ∈ expr.leaves := by
  rw [columns, List.mem_filterMap]
  constructor
  · rintro ⟨leaf, member, same⟩
    cases leaf with
    | column _ => cases same; exact member
    | query _ => cases same
  · exact fun member => ⟨_, member, rfl⟩

variable {change : ColumnReference → ColumnReference}

mutual

theorem Expr.leaves_mapColumns (expr : Expr) :
    (expr.mapColumns change).leaves = expr.leaves.map (Leaf.mapColumn change) := by
  cases expr with
  | argument _ | literal _ | column _ | countAll | «exists» _ _ | subquery _ => rfl
  | not operand | negate operand | isNull _ operand | cast operand _ =>
      exact operand.leaves_mapColumns
  | inQuery _ operand _ =>
      simp [mapColumns, leaves, operand.leaves_mapColumns, Leaf.mapColumn]
  | binary _ left right | like _ left right =>
      simp [mapColumns, leaves, left.leaves_mapColumns, right.leaves_mapColumns]
  | between _ operand low high =>
      simp [mapColumns, leaves, operand.leaves_mapColumns, low.leaves_mapColumns,
        high.leaves_mapColumns]
  | inList _ operand items =>
      simp [mapColumns, leaves, operand.leaves_mapColumns, Expr.listLeaves_mapColumns items]
  | call _ _ arguments => exact Expr.listLeaves_mapColumns arguments
  | window _ arguments partition order =>
      simp [mapColumns, leaves, Expr.listLeaves_mapColumns arguments,
        Expr.listLeaves_mapColumns partition, Expr.orderLeaves_mapColumns order]
  | case branches otherwise =>
      simp [mapColumns, leaves, Expr.branchLeaves_mapColumns branches,
        Expr.optionLeaves_mapColumns otherwise]
termination_by structural expr

theorem Expr.listLeaves_mapColumns (exprs : List Expr) :
    Expr.listLeaves (Expr.listMapColumns change exprs) =
      (Expr.listLeaves exprs).map (Leaf.mapColumn change) := by
  cases exprs with
  | nil => rfl
  | cons expr rest =>
      simp [Expr.listMapColumns, Expr.listLeaves, expr.leaves_mapColumns,
        Expr.listLeaves_mapColumns rest]
termination_by structural exprs

theorem Expr.orderLeaves_mapColumns (items : List (OrderItem Expr)) :
    Expr.orderLeaves (Expr.orderMapColumns change items) =
      (Expr.orderLeaves items).map (Leaf.mapColumn change) := by
  cases items with
  | nil => rfl
  | cons item rest =>
      cases item with
      | mk expr _ =>
          simp [Expr.orderMapColumns, Expr.orderLeaves, expr.leaves_mapColumns,
            Expr.orderLeaves_mapColumns rest]
termination_by structural items

theorem Expr.branchLeaves_mapColumns (branches : List (Branch Expr)) :
    Expr.branchLeaves (Expr.branchMapColumns change branches) =
      (Expr.branchLeaves branches).map (Leaf.mapColumn change) := by
  cases branches with
  | nil => rfl
  | cons branch rest =>
      cases branch with
      | mk condition result =>
          simp [Expr.branchMapColumns, Expr.branchLeaves, condition.leaves_mapColumns,
            result.leaves_mapColumns, Expr.branchLeaves_mapColumns rest]
termination_by structural branches

theorem Expr.optionLeaves_mapColumns (expr : Option Expr) :
    Expr.optionLeaves (Expr.optionMapColumns change expr) =
      (Expr.optionLeaves expr).map (Leaf.mapColumn change) := by
  cases expr with
  | none => rfl
  | some expr => exact expr.leaves_mapColumns
termination_by structural expr

end

/-- The changed columns stand in the order of the old ones. -/
theorem Expr.columns_mapColumns (expr : Expr) :
    (expr.mapColumns change).columns = expr.columns.map change := by
  have columns : Leaf.column? ∘ Leaf.mapColumn change = fun leaf => leaf.column?.map change := by
    funext leaf
    cases leaf <;> rfl
  rw [Expr.columns, leaves_mapColumns, List.filterMap_map, columns, Expr.columns,
    List.map_filterMap]

mutual

/-- An expression is what it is but for its columns. -/
theorem Expr.mapColumns_of_fixed (expr : Expr)
    (fixed : ∀ reference, .column reference ∈ expr.leaves → change reference = reference) :
    expr.mapColumns change = expr := by
  cases expr with
  | argument _ | literal _ | countAll | «exists» _ _ | subquery _ => rfl
  | column reference => rw [mapColumns, fixed reference (List.mem_singleton.mpr rfl)]
  | not operand | negate operand | isNull _ operand | cast operand _ =>
      rw [mapColumns, operand.mapColumns_of_fixed fixed]
  | inQuery _ operand _ =>
      simp only [leaves, List.mem_append, or_imp, forall_and] at fixed
      rw [mapColumns, operand.mapColumns_of_fixed fixed.1]
  | binary _ left right | like _ left right =>
      simp only [leaves, List.mem_append, or_imp, forall_and] at fixed
      rw [mapColumns, left.mapColumns_of_fixed fixed.1, right.mapColumns_of_fixed fixed.2]
  | between _ operand low high =>
      simp only [leaves, List.mem_append, or_imp, forall_and] at fixed
      rw [mapColumns, operand.mapColumns_of_fixed fixed.1.1, low.mapColumns_of_fixed fixed.1.2,
        high.mapColumns_of_fixed fixed.2]
  | inList _ operand items =>
      simp only [leaves, List.mem_append, or_imp, forall_and] at fixed
      rw [mapColumns, operand.mapColumns_of_fixed fixed.1,
        Expr.listMapColumns_of_fixed items fixed.2]
  | call _ _ arguments => rw [mapColumns, Expr.listMapColumns_of_fixed arguments fixed]
  | window _ arguments partition order =>
      simp only [leaves, List.mem_append, or_imp, forall_and] at fixed
      rw [mapColumns, Expr.listMapColumns_of_fixed arguments fixed.1.1,
        Expr.listMapColumns_of_fixed partition fixed.1.2,
        Expr.orderMapColumns_of_fixed order fixed.2]
  | case branches otherwise =>
      simp only [leaves, List.mem_append, or_imp, forall_and] at fixed
      rw [mapColumns, Expr.branchMapColumns_of_fixed branches fixed.1,
        Expr.optionMapColumns_of_fixed otherwise fixed.2]
termination_by structural expr

theorem Expr.listMapColumns_of_fixed (exprs : List Expr)
    (fixed : ∀ reference, .column reference ∈ Expr.listLeaves exprs →
      change reference = reference) :
    Expr.listMapColumns change exprs = exprs := by
  cases exprs with
  | nil => rfl
  | cons expr rest =>
      simp only [Expr.listLeaves, List.mem_append, or_imp, forall_and] at fixed
      rw [Expr.listMapColumns, expr.mapColumns_of_fixed fixed.1,
        Expr.listMapColumns_of_fixed rest fixed.2]
termination_by structural exprs

theorem Expr.orderMapColumns_of_fixed (items : List (OrderItem Expr))
    (fixed : ∀ reference, .column reference ∈ Expr.orderLeaves items →
      change reference = reference) :
    Expr.orderMapColumns change items = items := by
  cases items with
  | nil => rfl
  | cons item rest =>
      cases item with
      | mk expr _ =>
          simp only [Expr.orderLeaves, List.mem_append, or_imp, forall_and] at fixed
          rw [Expr.orderMapColumns, expr.mapColumns_of_fixed fixed.1,
            Expr.orderMapColumns_of_fixed rest fixed.2]
termination_by structural items

theorem Expr.branchMapColumns_of_fixed (branches : List (Branch Expr))
    (fixed : ∀ reference, .column reference ∈ Expr.branchLeaves branches →
      change reference = reference) :
    Expr.branchMapColumns change branches = branches := by
  cases branches with
  | nil => rfl
  | cons branch rest =>
      cases branch with
      | mk condition result =>
          simp only [Expr.branchLeaves, List.mem_append, or_imp, forall_and] at fixed
          rw [Expr.branchMapColumns, condition.mapColumns_of_fixed fixed.1.1,
            result.mapColumns_of_fixed fixed.1.2, Expr.branchMapColumns_of_fixed rest fixed.2]
termination_by structural branches

theorem Expr.optionMapColumns_of_fixed (expr : Option Expr)
    (fixed : ∀ reference, .column reference ∈ Expr.optionLeaves expr →
      change reference = reference) :
    Expr.optionMapColumns change expr = expr := by
  cases expr with
  | none => rfl
  | some expr => rw [Expr.optionMapColumns, expr.mapColumns_of_fixed fixed]
termination_by structural expr

end

/-! ## Parts with their columns changed -/

namespace Expr

theorem listMapColumns_eq (exprs : List Expr) :
    listMapColumns change exprs = exprs.map (mapColumns change) := by
  induction exprs with
  | nil => rfl
  | cons expr rest ih => rw [listMapColumns, ih, List.map_cons]

theorem orderMapColumns_eq (items : List (OrderItem Expr)) :
    orderMapColumns change items =
      items.map fun item => ⟨item.expr.mapColumns change, item.descending⟩ := by
  induction items with
  | nil => rfl
  | cons item rest ih => rw [orderMapColumns, ih, List.map_cons]

theorem branchMapColumns_eq (branches : List (Branch Expr)) :
    branchMapColumns change branches = branches.map fun branch =>
      ⟨branch.condition.mapColumns change, branch.result.mapColumns change⟩ := by
  induction branches with
  | nil => rfl
  | cons branch rest ih => rw [branchMapColumns, ih, List.map_cons]

theorem optionMapColumns_eq (expr : Option Expr) :
    optionMapColumns change expr = expr.map (mapColumns change) := by
  cases expr <;> rfl

/-- The parts change as the whole does. -/
theorem parts_mapColumns (clauses : WindowClauses) (expr : Expr) :
    (expr.mapColumns change).parts clauses = (expr.parts clauses).map (mapColumns change) := by
  cases expr with
  | window _ arguments partition order =>
      cases clauses with
      | mk partitions orders =>
          cases partitions <;> cases orders <;>
            simp [mapColumns, parts, listMapColumns_eq, orderMapColumns_eq]
  | case branches otherwise =>
      cases otherwise <;>
        simp [mapColumns, parts, branchMapColumns_eq, optionMapColumns_eq, Branch.both,
          List.flatMap_map, List.map_flatMap]
  | _ => simp [mapColumns, parts, listMapColumns_eq]

end Expr

/-! ## Binding as a change of columns -/

/-- A column in its place once it is bound; what does not resolve is left. -/
def ColumnReference.settle (scope : Scope) (reference : ColumnReference) : ColumnReference :=
  match reference.resolve scope with
  | .ok column => .resolved column
  | .error _ => reference

/-- A column that resolves is settled as what it resolves to. -/
theorem ColumnReference.settle_of_resolve {scope : Scope} {reference : ColumnReference}
    {column : ResolvedColumn} (resolves : reference.resolve scope = .ok column) :
    reference.settle scope = .resolved column := by
  rw [settle, resolves]

namespace Leaf

variable {α β : Type} {scope : Scope} {leaves more : List Leaf}

/-- An outcome is what it has to be with all columns settled, unless one of them does not
resolve: then it is the error of the first that does not. -/
def Settles (scope : Scope) (leaves : List Leaf) (outcome : Except QueryError α) (settled : α) :
    Prop :=
  outcome = ((leaves.filterMap column?).mapM (ColumnReference.resolve scope)).map fun _ => settled

namespace Settles

theorem pure (value : α) : Settles scope [] (Pure.pure value) value := rfl

theorem query (nested : Query) (value : α) :
    Settles scope [.query nested] (Pure.pure value) value := rfl

theorem column (reference : ColumnReference) :
    Settles scope [.column reference]
      (do return Expr.column (.resolved (← reference.resolve scope)))
      (.column (reference.settle scope)) := by
  cases resolves : reference.resolve scope <;>
    simp [Settles, column?, ColumnReference.settle, resolves, Bind.bind, Except.bind,
      Except.map, Pure.pure, Except.pure]

theorem bind {outcome : Except QueryError α} {value : α} {next : α → Except QueryError β}
    {settled : β} (first : Settles scope leaves outcome value)
    (second : Settles scope more (next value) settled) :
    Settles scope (leaves ++ more) (outcome >>= next) settled := by
  rw [Settles, first, List.filterMap_append, List.mapM_append]
  cases (leaves.filterMap column?).mapM (ColumnReference.resolve scope) with
  | error _ => rfl
  | ok _ =>
      refine second.trans ?_
      cases (more.filterMap column?).mapM (ColumnReference.resolve scope) <;> rfl

theorem map {outcome : Except QueryError α} {value : α}
    (settles : Settles scope leaves outcome value) (make : α → β) :
    Settles scope leaves (do return make (← outcome)) (make value) := by
  rw [← List.append_nil leaves]
  exact settles.bind (.pure _)

end Settles

end Leaf

variable {scope : Scope}

open Leaf in
mutual

theorem Expr.bind_settles (expr : Expr) :
    Settles scope expr.leaves (expr.bind scope) (expr.mapColumns (·.settle scope)) := by
  cases expr with
  | argument _ => exact .pure _
  | literal _ => exact .pure _
  | countAll => exact .pure _
  | column reference => exact .column reference
  | «exists» _ nested => exact .query nested _
  | subquery nested => exact .query nested _
  | not operand => exact operand.bind_settles.map _
  | negate operand => exact operand.bind_settles.map _
  | isNull _ operand => exact operand.bind_settles.map _
  | cast operand _ => exact operand.bind_settles.map (Expr.cast · _)
  | inQuery _ operand nested => exact operand.bind_settles.bind (.query nested _)
  | binary _ left right => exact left.bind_settles.bind (right.bind_settles.map _)
  | like _ operand pattern => exact operand.bind_settles.bind (pattern.bind_settles.map _)
  | between _ operand low high =>
      rw [leaves, List.append_assoc]
      exact operand.bind_settles.bind (low.bind_settles.bind (high.bind_settles.map _))
  | inList _ operand items =>
      exact operand.bind_settles.bind ((Expr.bindAll_settles items).map _)
  | call _ _ arguments => exact (Expr.bindAll_settles arguments).map _
  | window _ arguments partition order =>
      rw [leaves, List.append_assoc]
      exact (Expr.bindAll_settles arguments).bind
        ((Expr.bindAll_settles partition).bind ((Expr.bindOrder_settles order).map _))
  | case branches otherwise =>
      exact (Expr.bindBranches_settles branches).bind ((Expr.bindOption_settles otherwise).map _)
termination_by structural expr

theorem Expr.bindAll_settles (exprs : List Expr) :
    Settles scope (Expr.listLeaves exprs) (Expr.bindAll scope exprs)
      (Expr.listMapColumns (·.settle scope) exprs) := by
  cases exprs with
  | nil => exact .pure _
  | cons expr rest => exact expr.bind_settles.bind ((Expr.bindAll_settles rest).map _)
termination_by structural exprs

theorem Expr.bindOrder_settles (items : List (OrderItem Expr)) :
    Settles scope (Expr.orderLeaves items) (Expr.bindOrder scope items)
      (Expr.orderMapColumns (·.settle scope) items) := by
  cases items with
  | nil => exact .pure _
  | cons item rest =>
      cases item with
      | mk expr _ => exact expr.bind_settles.bind ((Expr.bindOrder_settles rest).map _)
termination_by structural items

theorem Expr.bindBranches_settles (branches : List (Branch Expr)) :
    Settles scope (Expr.branchLeaves branches) (Expr.bindBranches scope branches)
      (Expr.branchMapColumns (·.settle scope) branches) := by
  cases branches with
  | nil => exact .pure _
  | cons branch rest =>
      cases branch with
      | mk condition result =>
          rw [Expr.branchLeaves, List.append_assoc]
          exact condition.bind_settles.bind
            (result.bind_settles.bind ((Expr.bindBranches_settles rest).map _))
termination_by structural branches

theorem Expr.bindOption_settles (expr : Option Expr) :
    Settles scope (Expr.optionLeaves expr) (Expr.bindOption scope expr)
      (Expr.optionMapColumns (·.settle scope) expr) := by
  cases expr with
  | none => exact .pure _
  | some expr => exact expr.bind_settles.map _
termination_by structural expr

end

/-- To bind an expression is to resolve its columns from left to right, and to put what they
are bound to in their places. -/
theorem Expr.bind_eq (scope : Scope) (expr : Expr) :
    expr.bind scope = (expr.columns.mapM (ColumnReference.resolve scope)).map fun _ =>
      expr.mapColumns (·.settle scope) :=
  expr.bind_settles

theorem Expr.bind_eq_ok_iff {expr bound : Expr} : expr.bind scope = .ok bound ↔
    (∀ reference ∈ expr.columns, ∃ column, reference.resolve scope = .ok column) ∧
      bound = expr.mapColumns (·.settle scope) := by
  rw [← exists_mapM_ok_iff, bind_eq]
  cases expr.columns.mapM (ColumnReference.resolve scope) <;> simp [Except.map, eq_comm]

end SqlSelect
