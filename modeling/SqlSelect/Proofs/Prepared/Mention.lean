import SqlSelect.Query.Prepared

/-!
# What a statement mentions

A walk over the query tree collects, from left to right as they are written, the
arguments of a statement, the statements nested in it, and the common tables it
names.  The walk knows nothing of the text: it follows the clauses of a query in
their order, and leaves out only the window clauses that a dialect has none of.

Common tables are then declared from the mentions alone, each behind those that its
own query mentions.
-/

namespace SqlSelect

/-- The clauses that a dialect writes inside a window. -/
structure WindowClauses where
  partition : Bool
  order : Bool
deriving DecidableEq, Repr

/-- The window clauses of a dialect. -/
def Dialect.windowClauses (dialect : Dialect) : WindowClauses :=
  ⟨dialect.supportsPartition, dialect.supportsWindowOrder⟩

/-- Something that a statement mentions in one place of its text. -/
inductive Mention where
  /-- A value handed over beside the text. -/
  | argument (value : Value)
  /-- A nested statement, written in this place: behind a set operator, or else in
  parentheses. -/
  | statement (operator : Option SetOperator) (query : Query)
  /-- A common table by its name, with what the query behind it mentions. -/
  | common (handle : Alias) (query : Query) (mentions : List Mention)

/-- What stands right ahead of a nested statement. -/
def SetOperator.opening : Option SetOperator → String
  | some operator => operator.keyword
  | none => "("

/-- A common table: its name, and the query behind it. -/
structure CommonQuery where
  «alias» : Alias
  query : Query

section Walk

variable (clauses : WindowClauses)

mutual

/-- What an expression mentions. -/
def Expr.mentions : Expr → List Mention
  | .argument value => [.argument value]
  | .literal value => if value.hasLiteral then [] else [.argument value]
  | .column _ => []
  | .not operand => operand.mentions
  | .negate operand => operand.mentions
  | .binary _ left right => left.mentions ++ right.mentions
  | .between _ operand low high => operand.mentions ++ low.mentions ++ high.mentions
  | .like _ operand pattern => operand.mentions ++ pattern.mentions
  | .inList _ operand items => operand.mentions ++ Expr.listMentions items
  | .inQuery _ operand query => operand.mentions ++ .statement none query :: query.mentions
  | .exists _ query => .statement none query :: query.mentions
  | .isNull _ operand => operand.mentions
  | .call _ _ arguments => Expr.listMentions arguments
  | .countAll => []
  | .cast operand _ => operand.mentions
  | .window _ arguments partition order =>
    Expr.listMentions arguments ++
      ((if clauses.partition then Expr.listMentions partition else []) ++
        if clauses.order then Expr.orderMentions order else [])
  | .subquery query => .statement none query :: query.mentions
  | .case branches otherwise =>
    Expr.branchMentions branches ++ Expr.optionMentions otherwise

/-- What the expressions of a list mention. -/
def Expr.listMentions : List Expr → List Mention
  | [] => []
  | expr :: rest => expr.mentions ++ Expr.listMentions rest

/-- What the entries of an ORDER BY list mention. -/
def Expr.orderMentions : List (OrderItem Expr) → List Mention
  | [] => []
  | ⟨expr, _⟩ :: rest => expr.mentions ++ Expr.orderMentions rest

/-- What the branches of a CASE mention, each condition before its result. -/
def Expr.branchMentions : List (Branch Expr) → List Mention
  | [] => []
  | ⟨condition, result⟩ :: rest =>
    condition.mentions ++ result.mentions ++ Expr.branchMentions rest

/-- What an expression that may be missing mentions. -/
def Expr.optionMentions : Option Expr → List Mention
  | none => []
  | some expr => expr.mentions

/-- What a source of a FROM tree mentions.  The query of a common table is not
written in this place. -/
def Source.mentions : Source → List Mention
  | ⟨_, .table⟩ => []
  | ⟨_, .temporary⟩ => []
  | ⟨_, .derived query⟩ => .statement none query :: query.mentions
  | ⟨handle, .common query⟩ => [.common handle query query.mentions]

/-- What the joins of a FROM tree mention, each source before its condition. -/
def Query.joinMentions : List Join → List Mention
  | [] => []
  | ⟨_, source, on⟩ :: rest =>
    source.mentions ++ Expr.optionMentions on ++ Query.joinMentions rest

/-- What the entries of a SELECT list mention. -/
def Query.projectionMentions : List Projection → List Mention
  | [] => []
  | ⟨expr, _⟩ :: rest => expr.mentions ++ Query.projectionMentions rest

/-- What the queries combined with a query mention. -/
def Query.operandMentions : List Operand → List Mention
  | [] => []
  | ⟨operator, query⟩ :: rest =>
    .statement (some operator) query :: query.mentions ++ Query.operandMentions rest

/-- What a query mentions, clause by clause. -/
def Query.mentions : Query → List Mention
  | { distinct := _, projection, source, joins, filter, groupBy, having, operands, orderBy
      fetchFirst := _, offset := _, isolation := _, lock := _ } =>
    Query.projectionMentions projection ++ source.mentions ++ Query.joinMentions joins ++
      Expr.optionMentions filter ++ Expr.listMentions groupBy ++ Expr.optionMentions having ++
        Query.operandMentions operands ++ Expr.orderMentions orderBy

end

/-! ## The walk over lists -/

theorem Expr.listMentions_eq (exprs : List Expr) :
    listMentions clauses exprs = exprs.flatMap (mentions clauses) := by
  induction exprs with
  | nil => rfl
  | cons expr rest ih => rw [listMentions, ih, List.flatMap_cons]

theorem Expr.orderMentions_eq (items : List (OrderItem Expr)) :
    orderMentions clauses items = items.flatMap fun item => item.expr.mentions clauses := by
  induction items with
  | nil => rfl
  | cons item rest ih => rw [orderMentions, ih, List.flatMap_cons]

theorem Expr.optionMentions_eq (expr : Option Expr) :
    optionMentions clauses expr = expr.toList.flatMap (mentions clauses) := by
  cases expr with
  | none => rfl
  | some expr => simp [optionMentions]

theorem Query.projectionMentions_eq (projections : List Projection) :
    projectionMentions clauses projections =
      projections.flatMap fun projection => projection.expr.mentions clauses := by
  induction projections with
  | nil => rfl
  | cons projection rest ih =>
      rw [List.flatMap_cons, ← ih]
      cases projection
      rfl

theorem Query.joinMentions_eq (joins : List Join) :
    joinMentions clauses joins = joins.flatMap fun join =>
      join.source.mentions clauses ++ Expr.optionMentions clauses join.on := by
  induction joins with
  | nil => rfl
  | cons join rest ih =>
      rw [List.flatMap_cons, ← ih]
      cases join
      rfl

theorem Query.operandMentions_eq (operands : List Operand) :
    operandMentions clauses operands = operands.flatMap fun operand =>
      .statement (some operand.operator) operand.query :: operand.query.mentions clauses := by
  induction operands with
  | nil => rfl
  | cons operand rest ih =>
      rw [List.flatMap_cons, ← ih]
      cases operand
      rfl

theorem Query.mentions_eq (query : Query) :
    query.mentions clauses =
      projectionMentions clauses query.projection ++ query.source.mentions clauses ++
        joinMentions clauses query.joins ++ Expr.optionMentions clauses query.filter ++
        Expr.listMentions clauses query.groupBy ++
        Expr.optionMentions clauses query.having ++
        operandMentions clauses query.operands ++
        Expr.orderMentions clauses query.orderBy := by
  cases query
  rfl

end Walk

namespace Mention

/-- The arguments among some mentions, in their order. -/
def arguments : List Mention → List Value
  | [] => []
  | .argument value :: rest => value :: arguments rest
  | .statement _ _ :: rest => arguments rest
  | .common _ _ _ :: rest => arguments rest

/-- The aliases of the common tables that are named among some mentions. -/
def names : List Mention → List Alias
  | [] => []
  | .argument _ :: rest => names rest
  | .statement _ _ :: rest => names rest
  | .common handle _ _ :: rest => handle :: names rest

mutual

/-- Declare the common table that is mentioned, unless it is declared already, behind
those that its own query mentions. -/
def declare (declared : List CommonQuery) : Mention → List CommonQuery
  | .argument _ => declared
  | .statement _ _ => declared
  | .common handle query mentions =>
    if declared.any (·.alias.same handle) then declared
    else declareAll declared mentions ++ [⟨handle, query⟩]

/-- Declare every common table among some mentions, in the order of first use. -/
def declareAll (declared : List CommonQuery) : List Mention → List CommonQuery
  | [] => declared
  | mention :: rest => declareAll (mention.declare declared) rest

end

end Mention

/-- The arguments of a query, collected over its tree. -/
def Query.collected (clauses : WindowClauses) (query : Query) : List Value :=
  Mention.arguments (query.mentions clauses)

/-- The common tables to declare ahead of a query, found over its tree. -/
def Query.hoisted (clauses : WindowClauses) (query : Query) : List CommonQuery :=
  Mention.declareAll [] (query.mentions clauses)

namespace Mention

@[simp] theorem arguments_append (left right : List Mention) :
    arguments (left ++ right) = arguments left ++ arguments right := by
  induction left with
  | nil => rfl
  | cons mention rest ih => cases mention <;> simp [arguments, ih]

@[simp] theorem names_append (left right : List Mention) :
    names (left ++ right) = names left ++ names right := by
  induction left with
  | nil => rfl
  | cons mention rest ih => cases mention <;> simp [names, ih]

@[simp] theorem declareAll_append (declared : List CommonQuery) (left right : List Mention) :
    declareAll declared (left ++ right) = declareAll (declareAll declared left) right := by
  induction left generalizing declared with
  | nil => rfl
  | cons mention rest ih => simp [declareAll, ih]

end Mention

end SqlSelect
