import SqlSelect.Operator
import SqlSelect.Error

/-!
# Expressions and queries

The tree of a SELECT statement.  Expressions and queries contain each other: an
expression may hold a sub-query, and a query holds expressions in its clauses and
further queries behind its aliases and its set operators.
-/

namespace SqlSelect

/-- A mention of a column, before or after it is bound to an alias. -/
inductive ColumnReference where
  | unresolved (column : ColumnInfo) (hint : Hint)
  | resolved (column : ResolvedColumn)
deriving DecidableEq, Repr

/-- The reference in words, as far as it is known. -/
def ColumnReference.describe : ColumnReference → String
  | .unresolved column .any => column.text
  | .unresolved column (.named name) => name ++ "." ++ column.name
  | .unresolved column (.only handle) => handle.displayName ++ "." ++ column.name
  | .resolved column => column.text

/-- An entry of an ORDER BY list. -/
structure OrderItem (α : Type) where
  expr : α
  descending : Bool
deriving Repr

/-- A branch of a CASE expression. -/
structure Branch (α : Type) where
  condition : α
  result : α
deriving Repr

/-- The ways of joining a relation to those before it. -/
inductive JoinKind where
  | inner
  | left
  | right
  | full
  | cross
deriving DecidableEq, Repr

/-- The keyword of a join, with the blanks around it. -/
def JoinKind.keyword : JoinKind → String
  | .inner => " join "
  | .left => " left join "
  | .right => " right join "
  | .full => " full outer join "
  | .cross => " cross join "

/-- The ways of combining two queries. -/
inductive SetOperator where
  | union
  | unionAll
deriving DecidableEq, Repr

/-- The keyword of a set operator, with the blanks around it. -/
def SetOperator.keyword : SetOperator → String
  | .union => " union "
  | .unionAll => " union all "

mutual

/-- An expression. -/
inductive Expr where
  /-- A value handed over beside the text. -/
  | argument (value : Value)
  /-- A value written into the text. -/
  | literal (value : Value)
  | column (reference : ColumnReference)
  | not (operand : Expr)
  | negate (operand : Expr)
  | binary (operator : BinaryOperator) (left right : Expr)
  | between (negated : Bool) (operand low high : Expr)
  | like (negated : Bool) (operand pattern : Expr)
  | inList (negated : Bool) (operand : Expr) (items : List Expr)
  | inQuery (negated : Bool) (operand : Expr) (query : Query)
  | exists (negated : Bool) (query : Query)
  | isNull (negated : Bool) (operand : Expr)
  | call (function : SqlFunction) (distinct : Bool) (arguments : List Expr)
  | countAll
  | cast (operand : Expr) (type : DataType)
  | window (function : SqlFunction) (arguments partition : List Expr)
      (order : List (OrderItem Expr))
  | subquery (query : Query)
  | case (branches : List (Branch Expr)) (otherwise : Option Expr)

/-- What an alias stands for. -/
inductive Relation where
  | table
  /-- A local temporary table. -/
  | temporary
  /-- A query in place of a table. -/
  | derived (query : Query)
  /-- A query that is declared once, ahead of the outermost statement. -/
  | common (query : Query)

/-- An alias with the relation behind it. -/
structure Source where
  «alias» : Alias
  relation : Relation

/-- A joined source with its condition. -/
structure Join where
  kind : JoinKind
  source : Source
  on : Option Expr

/-- An entry of the SELECT list. -/
structure Projection where
  expr : Expr
  label : Option String

/-- A query combined with those before it. -/
structure Operand where
  operator : SetOperator
  query : Query

/-- A SELECT query.  Ordering, pagination and locking apply to the rows of the
query combined with all its operands. -/
structure Query where
  distinct : Bool
  /-- Empty stands for all columns of every source. -/
  projection : List Projection
  source : Source
  joins : List Join
  filter : Option Expr
  groupBy : List Expr
  having : Option Expr
  operands : List Operand
  orderBy : List (OrderItem Expr)
  fetchFirst : Option Nat
  offset : Option Nat
  isolation : Option IsolationLevel
  lock : Option LockLevel

end

/-- The query of every column of one source. -/
def Query.ofSource (source : Source) : Query :=
  { distinct := false, projection := [], source, joins := [], filter := none, groupBy := []
    having := none, operands := [], orderBy := [], fetchFirst := none, offset := none
    isolation := none, lock := none }

/-- The sources of a query, in the order of its FROM tree. -/
def Query.sources (query : Query) : List Source :=
  query.source :: query.joins.map Join.source

namespace Expr

/-- The expression in words: a column by its name, and all else as what it is. -/
def describe : Expr → String
  | .column reference => reference.describe
  | _ => "expression"

/-- The label of an unlabelled entry of the SELECT list.  A column keeps its own
name. -/
def defaultLabel (position : Nat) : Expr → Option String
  | .column _ => none
  | _ => some ("c" ++ position.repr)

/-- How tightly an expression binds as `dialect` writes it.  A text joined by a
function binds like any function, and a negative number like a negation. -/
def precedence (dialect : Dialect) : Expr → Precedence
  | .binary .concat _ _ => if dialect.concatOperator?.isNone then .primary else .additive
  | .binary operator _ _ => operator.precedence
  | .not _ | .negate _ => .unary
  | .literal value => if value.isNegative then .unary else .primary
  | .between .. | .like .. | .inList .. | .inQuery .. | .exists .. | .isNull .. => .predicate
  | .argument _ | .column _ | .call .. | .countAll | .cast .. | .window .. | .subquery _
  | .case .. => .primary

/-- A child has to stand in parentheses where something at least as tight as
`required` is expected, or something tighter still if `strict`. -/
def needsGroup (dialect : Dialect) (required : Precedence) (strict : Bool) (child : Expr) :
    Bool :=
  let level := (child.precedence dialect).level
  level < required.level || strict && level == required.level

end Expr

end SqlSelect
