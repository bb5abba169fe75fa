/-!
# Operators and precedence

The infix operators of expressions, and how tightly each form of expression binds.
-/

namespace SqlSelect

/-- How tightly an expression binds, loosest first. -/
inductive Precedence where
  | or
  | and
  | predicate
  | comparison
  | additive
  | multiplicative
  | unary
  | primary
deriving DecidableEq, Repr

namespace Precedence

/-- Every precedence, loosest first. -/
def all : List Precedence :=
  [.or, .and, .predicate, .comparison, .additive, .multiplicative, .unary, .primary]

@[simp] theorem mem_all (precedence : Precedence) : precedence ∈ all := by
  cases precedence <;> decide

/-- The place of a precedence in the order of binding. -/
def level : Precedence → Nat
  | .or => 0
  | .and => 1
  | .predicate => 2
  | .comparison => 3
  | .additive => 4
  | .multiplicative => 5
  | .unary => 6
  | .primary => 7

theorem level_injective : ∀ left right : Precedence, left.level = right.level → left = right := by
  intro left right
  cases left <;> cases right <;> simp [level]

end Precedence

/-- The operators written between two operands. -/
inductive BinaryOperator where
  | and
  | or
  | equal
  | notEqual
  | less
  | lessEqual
  | greater
  | greaterEqual
  | add
  | subtract
  | multiply
  | divide
  | remainder
  | concat
deriving DecidableEq, Repr

namespace BinaryOperator

/-- Every operator, in the order of its declaration. -/
def all : List BinaryOperator :=
  [.and, .or, .equal, .notEqual, .less, .lessEqual, .greater, .greaterEqual, .add, .subtract,
    .multiply, .divide, .remainder, .concat]

/-- The standard spelling. -/
def symbol : BinaryOperator → String
  | .and => "and"
  | .or => "or"
  | .equal => "="
  | .notEqual => "<>"
  | .less => "<"
  | .lessEqual => "<="
  | .greater => ">"
  | .greaterEqual => ">="
  | .add => "+"
  | .subtract => "-"
  | .multiply => "*"
  | .divide => "/"
  | .remainder => "%"
  | .concat => "||"

/-- How tightly the operator binds. -/
def precedence : BinaryOperator → Precedence
  | .or => .or
  | .and => .and
  | .equal | .notEqual | .less | .lessEqual | .greater | .greaterEqual => .comparison
  | .add | .subtract | .concat => .additive
  | .multiply | .divide | .remainder => .multiplicative

/-- The operands keep their type in the result, rather than giving a condition. -/
def isArithmetic : BinaryOperator → Bool
  | .add | .subtract | .multiply | .divide | .remainder | .concat => true
  | _ => false

end BinaryOperator

/-- The two ways in which a condition is extended. -/
inductive Connective where
  | and
  | or
deriving DecidableEq, Repr

/-- The operator that a connective stands for. -/
def Connective.operator : Connective → BinaryOperator
  | .and => .and
  | .or => .or

end SqlSelect
