import SqlSelect.Query
import SqlSelect.Scope

/-!
# Binding columns

Binding an expression to a scope resolves every column reference outside its
sub-queries, which were bound when they were built.  The first reference that does
not resolve, in the order of writing, is the error.
-/

namespace SqlSelect

/-- Bind a reference.  A resolved one stays what it is. -/
def ColumnReference.resolve (scope : Scope) : ColumnReference → Except QueryError ResolvedColumn
  | .unresolved column hint => scope.resolve column hint
  | .resolved column => .ok column

mutual

/-- Bind every column of an expression. -/
def Expr.bind (scope : Scope) : Expr → Except QueryError Expr
  | .argument value => .ok (.argument value)
  | .literal value => .ok (.literal value)
  | .column reference => do return .column (.resolved (← reference.resolve scope))
  | .not operand => do return .not (← operand.bind scope)
  | .negate operand => do return .negate (← operand.bind scope)
  | .binary operator left right => do
    return .binary operator (← left.bind scope) (← right.bind scope)
  | .between negated operand low high => do
    return .between negated (← operand.bind scope) (← low.bind scope) (← high.bind scope)
  | .like negated operand pattern => do
    return .like negated (← operand.bind scope) (← pattern.bind scope)
  | .inList negated operand items => do
    return .inList negated (← operand.bind scope) (← Expr.bindAll scope items)
  | .inQuery negated operand query => do
    return .inQuery negated (← operand.bind scope) query
  | .exists negated query => .ok (.exists negated query)
  | .isNull negated operand => do return .isNull negated (← operand.bind scope)
  | .call function distinct arguments => do
    return .call function distinct (← Expr.bindAll scope arguments)
  | .countAll => .ok .countAll
  | .cast operand type => do return .cast (← operand.bind scope) type
  | .window function arguments partition order => do
    return .window function (← Expr.bindAll scope arguments) (← Expr.bindAll scope partition)
      (← Expr.bindOrder scope order)
  | .subquery query => .ok (.subquery query)
  | .case branches otherwise => do
    return .case (← Expr.bindBranches scope branches) (← Expr.bindOption scope otherwise)

/-- Bind a list of expressions from left to right. -/
def Expr.bindAll (scope : Scope) : List Expr → Except QueryError (List Expr)
  | [] => .ok []
  | expr :: rest => do return (← expr.bind scope) :: (← Expr.bindAll scope rest)

/-- Bind an ORDER BY list from left to right. -/
def Expr.bindOrder (scope : Scope) :
    List (OrderItem Expr) → Except QueryError (List (OrderItem Expr))
  | [] => .ok []
  | ⟨expr, descending⟩ :: rest => do
    return ⟨← expr.bind scope, descending⟩ :: (← Expr.bindOrder scope rest)

/-- Bind the branches of a CASE, each condition before its result. -/
def Expr.bindBranches (scope : Scope) :
    List (Branch Expr) → Except QueryError (List (Branch Expr))
  | [] => .ok []
  | ⟨condition, result⟩ :: rest => do
    return ⟨← condition.bind scope, ← result.bind scope⟩ :: (← Expr.bindBranches scope rest)

/-- Bind an expression that may be missing. -/
def Expr.bindOption (scope : Scope) : Option Expr → Except QueryError (Option Expr)
  | none => .ok none
  | some expr => do return some (← expr.bind scope)

end

mutual

/-- Some column of the expression, outside its sub-queries, is bound to `handle`. -/
def Expr.references (handle : Alias) : Expr → Bool
  | .column (.resolved resolved) => resolved.alias.same handle
  | .column (.unresolved _ _) => false
  | .argument _ | .literal _ | .countAll | .exists _ _ | .subquery _ => false
  | .not operand | .negate operand | .isNull _ operand | .cast operand _
  | .inQuery _ operand _ => operand.references handle
  | .binary _ left right => left.references handle || right.references handle
  | .between _ operand low high =>
    operand.references handle || low.references handle || high.references handle
  | .like _ operand pattern => operand.references handle || pattern.references handle
  | .inList _ operand items => operand.references handle || Expr.anyReferences handle items
  | .call _ _ arguments => Expr.anyReferences handle arguments
  | .window _ arguments partition order =>
    Expr.anyReferences handle arguments || Expr.anyReferences handle partition ||
      Expr.orderReferences handle order
  | .case branches otherwise =>
    Expr.branchReferences handle branches || Expr.optionReferences handle otherwise

/-- Some expression of a list references `handle`. -/
def Expr.anyReferences (handle : Alias) : List Expr → Bool
  | [] => false
  | expr :: rest => expr.references handle || Expr.anyReferences handle rest

/-- Some entry of an ORDER BY list references `handle`. -/
def Expr.orderReferences (handle : Alias) : List (OrderItem Expr) → Bool
  | [] => false
  | ⟨expr, _⟩ :: rest => expr.references handle || Expr.orderReferences handle rest

/-- Some branch of a CASE references `handle`. -/
def Expr.branchReferences (handle : Alias) : List (Branch Expr) → Bool
  | [] => false
  | ⟨condition, result⟩ :: rest =>
    condition.references handle || result.references handle || Expr.branchReferences handle rest

/-- An expression that may be missing references `handle`. -/
def Expr.optionReferences (handle : Alias) : Option Expr → Bool
  | none => false
  | some expr => expr.references handle

end

end SqlSelect
