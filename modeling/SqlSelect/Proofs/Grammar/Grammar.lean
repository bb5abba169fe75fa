import SqlSelect.Proofs.Grammar.Token

/-!
# The grammar of expressions

Which token lists are read as which phrase, level by level.  Operators of one level
associate to the left.  The operand of a predicate stands one level tighter than the
predicate, bounds and patterns at the level of sums.  A minus sign stands ahead of a
primary only.  Parentheses leave no trace in the phrase.

How tightly the word NOT binds is left open: like a minus sign, or like in standard SQL, where
it takes in a whole predicate.  Ahead of EXISTS it belongs to that predicate.
-/

namespace SqlSelect

namespace Precedence

/-- The next tighter level. -/
def tighter : Precedence → Precedence
  | .or => .and
  | .and => .predicate
  | .predicate => .comparison
  | .comparison => .additive
  | .additive => .multiplicative
  | .multiplicative => .unary
  | .unary | .primary => .primary

/-- The operators of a level. -/
def operators : Precedence → List BinaryOperator
  | .or => [.or]
  | .and => [.and]
  | .comparison => [.equal, .notEqual, .less, .lessEqual, .greater, .greaterEqual]
  | .additive => [.add, .subtract, .concat]
  | .multiplicative => [.multiply, .divide, .remainder]
  | .predicate | .unary | .primary => []

/-- An operator has the precedence of its level. -/
theorem mem_operators {level : Precedence} {operator : BinaryOperator} :
    operator ∈ level.operators ↔ operator.precedence = level := by
  cases level <;> cases operator <;> decide

end Precedence

/-- How tightly the word NOT binds. -/
inductive NotLevel where
  /-- Like a minus sign. -/
  | declared
  /-- Looser than every comparison, and tighter than AND. -/
  | standard
deriving DecidableEq, Repr

/-- The level of a NOT, and of what it is written ahead of. -/
def NotLevel.precedence : NotLevel → Precedence
  | .declared => .unary
  | .standard => .predicate

/-- What an expression is read as.  Leaves are kept by their text. -/
inductive Phrase where
  | place (value : Value)
  | leaf (text : String)
  | query (pieces : List Piece)
  | not (operand : Phrase)
  | negate (operand : Phrase)
  | binary (operator : BinaryOperator) (left right : Phrase)
  | between (negated : Bool) (operand low high : Phrase)
  | like (negated : Bool) (operand pattern : Phrase)
  | inList (negated : Bool) (operand : Phrase) (items : List Phrase)
  | inQuery (negated : Bool) (operand : Phrase) (pieces : List Piece)
  | exists (negated : Bool) (pieces : List Piece)
  | isNull (negated : Bool) (operand : Phrase)
  | call (function : SqlFunction) (distinct : Bool) (arguments : List Phrase)
  | countAll
  | cast (operand : Phrase) (type : String)
  | window (function : SqlFunction) (arguments partition : List Phrase)
      (order : List (OrderItem Phrase))
  | case (branches : List (Branch Phrase)) (otherwise : Option Phrase)

/-- Some tokens with the phrase they are read as. -/
structure Reading where
  tokens : List Token
  phrase : Phrase

namespace Token

/-- The items one after another, with commas between them. -/
def separated : List (List Token) → List Token
  | [] => []
  | [item] => item
  | item :: rest => item ++ .comma :: separated rest

/-- Some tokens in parentheses. -/
def enclosed (body : List Token) : List Token :=
  .opening :: body ++ [.closing]

/-- A clause of a window, left out where it is empty. -/
def clause (keyword : Keyword) (items : List (List Token)) : List Token :=
  if items.isEmpty then [] else .keyword keyword :: .keyword .by :: separated items

end Token

namespace Reading

/-- The tokens of an entry of an ORDER BY list. -/
def orderTokens (item : OrderItem Reading) : List Token :=
  item.expr.tokens ++ if item.descending then [.keyword .descending] else []

/-- The tokens of a branch of a CASE. -/
def branchTokens (branch : Branch Reading) : List Token :=
  .keyword .when :: branch.condition.tokens ++ .keyword .thenResult :: branch.result.tokens

/-- The tokens behind the branches of a CASE. -/
def otherwiseTokens : Option Reading → List Token
  | none => []
  | some otherwise => .keyword .otherwise :: otherwise.tokens

end Reading

open Token in
/-- The grammar of a dialect: the tokens are read as the phrase, at the level. -/
inductive Reads (dialect : Dialect) (notLevel : NotLevel) :
    Precedence → List Token → Phrase → Prop where
  | tighter {level : Precedence} {tokens : List Token} {phrase : Phrase} :
      Reads dialect notLevel level.tighter tokens phrase →
      Reads dialect notLevel level tokens phrase
  | binary {level : Precedence} (operator : BinaryOperator) {left right : List Token}
      {leftPhrase rightPhrase : Phrase} :
      operator ∈ level.operators → (operator = .concat → dialect.concatOperator?.isSome) →
      Reads dialect notLevel level left leftPhrase →
      Reads dialect notLevel level.tighter right rightPhrase →
      Reads dialect notLevel level (left ++ .operator operator :: right)
        (.binary operator leftPhrase rightPhrase)
  | between (negated : Bool) {operand low high : List Token}
      {operandPhrase lowPhrase highPhrase : Phrase} :
      Reads dialect notLevel .comparison operand operandPhrase →
      Reads dialect notLevel .additive low lowPhrase →
      Reads dialect notLevel .additive high highPhrase →
      Reads dialect notLevel .predicate
        (operand ++ negation negated ++ .keyword .between :: low ++ .operator .and :: high)
        (.between negated operandPhrase lowPhrase highPhrase)
  | like (negated : Bool) {operand pattern : List Token}
      {operandPhrase patternPhrase : Phrase} :
      Reads dialect notLevel .comparison operand operandPhrase →
      Reads dialect notLevel .additive pattern patternPhrase →
      Reads dialect notLevel .predicate (operand ++ negation negated ++ .keyword .like :: pattern)
        (.like negated operandPhrase patternPhrase)
  | inList (negated : Bool) {operand : List Token} {operandPhrase : Phrase}
      (items : List Reading) :
      Reads dialect notLevel .comparison operand operandPhrase →
      (∀ item ∈ items, Reads dialect notLevel .or item.tokens item.phrase) →
      Reads dialect notLevel .predicate
        (operand ++ negation negated ++ .keyword .isIn ::
          enclosed (separated (items.map Reading.tokens)))
        (.inList negated operandPhrase (items.map Reading.phrase))
  | inQuery (negated : Bool) {operand : List Token} {operandPhrase : Phrase}
      (pieces : List Piece) :
      Reads dialect notLevel .comparison operand operandPhrase →
      Reads dialect notLevel .predicate
        (operand ++ negation negated ++ [.keyword .isIn, .query pieces])
        (.inQuery negated operandPhrase pieces)
  | exists (negated : Bool) (pieces : List Piece) :
      Reads dialect notLevel .predicate (negation negated ++ [.keyword .exists, .query pieces])
        (.exists negated pieces)
  | isNull (negated : Bool) {operand : List Token} {operandPhrase : Phrase} :
      Reads dialect notLevel .comparison operand operandPhrase →
      Reads dialect notLevel .predicate
        (operand ++ .keyword .is :: negation negated ++ [.keyword .null])
        (.isNull negated operandPhrase)
  | not {operand : List Token} {operandPhrase : Phrase} :
      .keyword .exists ∉ operand.head? →
      Reads dialect notLevel notLevel.precedence operand operandPhrase →
      Reads dialect notLevel notLevel.precedence (.keyword .not :: operand) (.not operandPhrase)
  | negate {operand : List Token} {operandPhrase : Phrase} :
      Reads dialect notLevel .primary operand operandPhrase →
      Reads dialect notLevel .unary (.operator .subtract :: operand) (.negate operandPhrase)
  | place (value : Value) : Reads dialect notLevel .primary [.place value] (.place value)
  | leaf (text : String) : Reads dialect notLevel .primary [.leaf text] (.leaf text)
  | query (pieces : List Piece) : Reads dialect notLevel .primary [.query pieces] (.query pieces)
  | group {tokens : List Token} {phrase : Phrase} :
      Reads dialect notLevel .or tokens phrase →
      Reads dialect notLevel .primary (enclosed tokens) phrase
  | call (function : SqlFunction) (distinct : Bool) (arguments : List Reading) :
      (∀ argument ∈ arguments, Reads dialect notLevel .or argument.tokens argument.phrase) →
      Reads dialect notLevel .primary
        (.function function ::
          enclosed ((if distinct then [.keyword .distinct] else []) ++
            separated (arguments.map Reading.tokens)))
        (.call function distinct (arguments.map Reading.phrase))
  | countAll :
      Reads dialect notLevel .primary
        (.function .count :: enclosed [.operator .multiply]) .countAll
  | concat {left right : List Token} {leftPhrase rightPhrase : Phrase} :
      dialect.concatOperator? = none →
      Reads dialect notLevel .or left leftPhrase → Reads dialect notLevel .or right rightPhrase →
      Reads dialect notLevel .primary (.concat :: enclosed (left ++ .comma :: right))
        (.binary .concat leftPhrase rightPhrase)
  | cast {operand : List Token} {operandPhrase : Phrase} (type : String) :
      Reads dialect notLevel .or operand operandPhrase →
      Reads dialect notLevel .primary
        (.keyword .cast :: enclosed (operand ++ [.keyword .asType, .leaf type]))
        (.cast operandPhrase type)
  | window (function : SqlFunction) (arguments partition : List Reading)
      (order : List (OrderItem Reading)) :
      (∀ argument ∈ arguments, Reads dialect notLevel .or argument.tokens argument.phrase) →
      (∀ item ∈ partition, Reads dialect notLevel .or item.tokens item.phrase) →
      (∀ item ∈ order, Reads dialect notLevel .or item.expr.tokens item.expr.phrase) →
      Reads dialect notLevel .primary
        (.function function ::
          enclosed (separated (arguments.map Reading.tokens)) ++
          .keyword .over :: enclosed (clause .partition (partition.map Reading.tokens) ++
            clause .order (order.map Reading.orderTokens)))
        (.window function (arguments.map Reading.phrase) (partition.map Reading.phrase)
          (order.map fun item => ⟨item.expr.phrase, item.descending⟩))
  | case (branches : List (Branch Reading)) (otherwise : Option Reading) :
      (∀ branch ∈ branches,
        Reads dialect notLevel .or branch.condition.tokens branch.condition.phrase) →
      (∀ branch ∈ branches,
        Reads dialect notLevel .or branch.result.tokens branch.result.phrase) →
      (∀ result ∈ otherwise, Reads dialect notLevel .or result.tokens result.phrase) →
      Reads dialect notLevel .primary
        (.keyword .case :: branches.flatMap Reading.branchTokens ++
          Reading.otherwiseTokens otherwise ++ [.keyword .endCase])
        (.case (branches.map fun branch => ⟨branch.condition.phrase, branch.result.phrase⟩)
          (otherwise.map Reading.phrase))

end SqlSelect
