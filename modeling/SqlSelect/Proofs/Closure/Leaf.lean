import SqlSelect.Select.Step

/-!
# Parts of a statement

The leaves of an expression that point beyond it are its columns and the queries nested
in it.  A query nests further queries in its expressions, behind its sources and as its
operands.
-/

namespace SqlSelect

/-- A leaf of an expression that points beyond it. -/
inductive Leaf where
  | column (reference : ColumnReference)
  | query (query : Query)

mutual

/-- The columns of an expression, outside its sub-queries, and those sub-queries. -/
def Expr.leaves : Expr → List Leaf
  | .argument _ | .literal _ | .countAll => []
  | .column reference => [.column reference]
  | .not operand | .negate operand | .isNull _ operand | .cast operand _ => operand.leaves
  | .binary _ left right => left.leaves ++ right.leaves
  | .between _ operand low high => operand.leaves ++ low.leaves ++ high.leaves
  | .like _ operand pattern => operand.leaves ++ pattern.leaves
  | .inList _ operand items => operand.leaves ++ Expr.listLeaves items
  | .inQuery _ operand query => operand.leaves ++ [.query query]
  | .exists _ query | .subquery query => [.query query]
  | .call _ _ arguments => Expr.listLeaves arguments
  | .window _ arguments partition order =>
    Expr.listLeaves arguments ++ Expr.listLeaves partition ++ Expr.orderLeaves order
  | .case branches otherwise => Expr.branchLeaves branches ++ Expr.optionLeaves otherwise

def Expr.listLeaves : List Expr → List Leaf
  | [] => []
  | expr :: rest => expr.leaves ++ Expr.listLeaves rest

def Expr.orderLeaves : List (OrderItem Expr) → List Leaf
  | [] => []
  | ⟨expr, _⟩ :: rest => expr.leaves ++ Expr.orderLeaves rest

def Expr.branchLeaves : List (Branch Expr) → List Leaf
  | [] => []
  | ⟨condition, result⟩ :: rest =>
    condition.leaves ++ result.leaves ++ Expr.branchLeaves rest

def Expr.optionLeaves : Option Expr → List Leaf
  | none => []
  | some expr => expr.leaves

end

mutual

/-- The statements in a term, from left to right. -/
def Term.selects : Term → List Select
  | .column .. | .value _ | .literal _ | .optional .. | .countAll => []
  | .not operand | .negate operand | .nullable operand | .isNull _ operand
  | .cast operand _ _ => operand.selects
  | .binary _ left right => left.selects ++ right.selects
  | .between _ operand low high => operand.selects ++ low.selects ++ high.selects
  | .like _ operand pattern => operand.selects ++ pattern.selects
  | .inList _ operand items => operand.selects ++ Term.listSelects items
  | .inSelect _ operand select => operand.selects ++ [select]
  | .exists _ select | .subquery select => [select]
  | .call _ _ arguments => Term.listSelects arguments
  | .window _ arguments partition order =>
    Term.listSelects arguments ++ Term.listSelects partition ++ Term.orderSelects order
  | .case ⟨condition, result⟩ rest otherwise =>
    condition.selects ++ result.selects ++ Term.branchSelects rest ++
      Term.optionSelects otherwise

def Term.listSelects : List Term → List Select
  | [] => []
  | term :: rest => term.selects ++ Term.listSelects rest

def Term.orderSelects : List (OrderItem Term) → List Select
  | [] => []
  | ⟨term, _⟩ :: rest => term.selects ++ Term.orderSelects rest

def Term.branchSelects : List (Branch Term) → List Select
  | [] => []
  | ⟨condition, result⟩ :: rest =>
    condition.selects ++ result.selects ++ Term.branchSelects rest

def Term.optionSelects : Option Term → List Select
  | none => []
  | some term => term.selects

end

namespace Query

/-- Every expression in the clauses of a query. -/
def exprs (query : Query) : List Expr :=
  query.projection.map Projection.expr ++ query.joins.filterMap Join.on ++
    query.filter.toList ++ query.groupBy ++ query.having.toList ++
    query.orderBy.map OrderItem.expr

/-- The aliases of a query, in the order of its FROM tree. -/
def aliases (query : Query) : List Alias :=
  query.sources.map Source.alias

end Query

/-- The query behind a source. -/
def Relation.query? : Relation → Option Query
  | .table | .temporary => none
  | .derived query | .common query => some query

/-- A query stands directly within another: in an expression, behind a source, or as an
operand. -/
inductive Query.Nests (query : Query) : Query → Prop where
  | inExpr {expr : Expr} {nested : Query} :
      expr ∈ query.exprs → .query nested ∈ expr.leaves → Nests query nested
  | behind {source : Source} {nested : Query} :
      source ∈ query.sources → source.relation.query? = some nested → Nests query nested
  | operand {operand : Operand} : operand ∈ query.operands → Nests query operand.query

/-- A query stands within another, at any depth. -/
inductive Query.Holds (query : Query) : Query → Prop where
  | direct {nested : Query} : query.Nests nested → Holds query nested
  | within {middle nested : Query} :
      Holds query middle → middle.Nests nested → Holds query nested

end SqlSelect
