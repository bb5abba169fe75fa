import SqlSelect.Select

/-!
# Terms

A `Term` is an expression as a program composes it: over typed scalars, columns of
tables, and statements that may still hold an error.  Assembling a term gives the
expression it stands for, or the first error among its parts from left to right.
-/

namespace SqlSelect

/-- An expression before it is assembled. -/
inductive Term where
  | column (table : Table) (column : Column) (hint : Hint)
  /-- A scalar handed over as an argument. -/
  | value (scalar : Scalar)
  /-- A scalar written into the text. -/
  | literal (scalar : Scalar)
  /-- A scalar of a type, or NULL, handed over as an argument. -/
  | optional (type : DataType) (scalar : Option Scalar)
  | not (operand : Term)
  | negate (operand : Term)
  /-- The operand itself, whose value may be NULL. -/
  | nullable (operand : Term)
  | binary (operator : BinaryOperator) (left right : Term)
  | between (negated : Bool) (operand low high : Term)
  | like (negated : Bool) (operand pattern : Term)
  | inList (negated : Bool) (operand : Term) (items : List Term)
  | inSelect (negated : Bool) (operand : Term) (select : Select)
  | exists (negated : Bool) (select : Select)
  | isNull (negated : Bool) (operand : Term)
  | call (function : SqlFunction) (distinct : Bool) (arguments : List Term)
  | countAll
  | cast (operand : Term) (type : DataType) (optional : Bool)
  | window (function : SqlFunction) (arguments partition : List Term)
      (order : List (OrderItem Term))
  | subquery (select : Select)
  /-- A CASE has at least one branch. -/
  | case (first : Branch Term) (rest : List (Branch Term)) (otherwise : Option Term)

namespace Term

/-- The part of a text from a position, of a length. -/
def substring (text : Term) (start length : Int64) : Term :=
  .call .substring false [text, .value (.bigInt start), .value (.bigInt length)]

/-- A condition extended by another. -/
def extend (left : Term) (connective : Connective) (right : Term) : Term :=
  .binary connective.operator left right

mutual

/-- The expression a term stands for, or the first error among its parts. -/
def assemble : Term → Except QueryError Expr
  | .column table member hint => .ok (.column (.unresolved (table.info member) hint))
  | .value scalar => .ok (.argument scalar.value)
  | .literal scalar => .ok (.literal scalar.value)
  | .optional _ (some scalar) => .ok (.argument scalar.value)
  | .optional _ none => .ok (.argument .null)
  | .not operand => do return .not (← operand.assemble)
  | .negate operand => do return .negate (← operand.assemble)
  | .nullable operand => operand.assemble
  | .binary operator left right => do
    return .binary operator (← left.assemble) (← right.assemble)
  | .between negated operand low high => do
    return .between negated (← operand.assemble) (← low.assemble) (← high.assemble)
  | .like negated operand pattern => do
    return .like negated (← operand.assemble) (← pattern.assemble)
  | .inList negated operand items => do
    let operand ← operand.assemble
    let items ← assembleAll items
    if items.isEmpty then throw (.emptyInList operand.describe)
    return .inList negated operand items
  | .inSelect negated operand select => do
    return .inQuery negated (← operand.assemble) (← select.result)
  | .exists negated select => do return .exists negated (← select.result)
  | .isNull negated operand => do return .isNull negated (← operand.assemble)
  | .call function distinct arguments => do
    return .call function distinct (← assembleAll arguments)
  | .countAll => .ok .countAll
  | .cast operand type _ => do return .cast (← operand.assemble) type
  | .window function arguments partition order => do
    return .window function (← assembleAll arguments) (← assembleAll partition)
      (← assembleOrder order)
  | .subquery select => do return .subquery (← select.result)
  | .case ⟨condition, result⟩ rest otherwise => do
    return .case (⟨← condition.assemble, ← result.assemble⟩ :: (← assembleBranches rest))
      (← assembleOption otherwise)

/-- Assemble a list of terms from left to right. -/
def assembleAll : List Term → Except QueryError (List Expr)
  | [] => .ok []
  | term :: rest => do return (← term.assemble) :: (← assembleAll rest)

/-- Assemble an ORDER BY list from left to right. -/
def assembleOrder : List (OrderItem Term) → Except QueryError (List (OrderItem Expr))
  | [] => .ok []
  | ⟨term, descending⟩ :: rest => do
    return ⟨← term.assemble, descending⟩ :: (← assembleOrder rest)

/-- Assemble the branches of a CASE, each condition before its result. -/
def assembleBranches : List (Branch Term) → Except QueryError (List (Branch Expr))
  | [] => .ok []
  | ⟨condition, result⟩ :: rest => do
    return ⟨← condition.assemble, ← result.assemble⟩ :: (← assembleBranches rest)

/-- Assemble a term that may be missing. -/
def assembleOption : Option Term → Except QueryError (Option Expr)
  | none => .ok none
  | some term => do return some (← term.assemble)

end

/-- The type of a function's result, given the type of its first argument. -/
def functionType (argument : RowType) : SqlFunction → RowType
  | .count | .length | .rowNumber | .rank | .denseRank => .scalar .bigInt
  | .avg => .scalar .double
  | _ => argument

/-- A scalar type that may be made optional. -/
def scalarType (type : DataType) (optional : Bool) : RowType :=
  if optional then .optional (.scalar type) else .scalar type

mutual

/-- What the value of a term decodes to. -/
def type : Term → RowType
  | .column _ member _ => member.rowType
  | .value scalar | .literal scalar => .scalar scalar.type
  | .optional type _ => .optional (.scalar type)
  | .negate operand => operand.type
  | .nullable operand => .optional operand.type
  | .binary operator left _ => if operator.isArithmetic then left.type else .scalar .boolean
  | .not _ | .between .. | .like .. | .inList .. | .inSelect .. | .exists .. | .isNull .. =>
    .scalar .boolean
  | .call function _ arguments => functionType (headType arguments) function
  | .countAll => .scalar .bigInt
  | .cast _ type mayBeAbsent => scalarType type mayBeAbsent
  | .window function arguments _ _ => functionType (headType arguments) function
  | .subquery select => select.rowType
  | .case ⟨_, result⟩ _ (some _) => result.type
  | .case ⟨_, result⟩ _ none => .optional result.type

/-- The type of the first of some arguments. -/
def headType : List Term → RowType
  | [] => .scalar .bigInt
  | term :: _ => term.type

end

end Term

end SqlSelect
