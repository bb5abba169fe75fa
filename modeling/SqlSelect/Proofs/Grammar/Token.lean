import SqlSelect.Query.Lexeme

/-!
# Tokens

What the symbols of an expression are made of.  A leaf is one token, and so is a query in
parentheses.  The same mark is the same token wherever it stands: a minus sign between two
operands or ahead of one, the word that joins two conditions or the bounds of a BETWEEN.
-/

namespace SqlSelect

/-- The words of expressions. -/
inductive Keyword where
  | not
  | between
  | like
  | isIn
  | is
  | null
  | exists
  | distinct
  | cast
  | asType
  | over
  | partition
  | by
  | order
  | descending
  | case
  | when
  | thenResult
  | otherwise
  | endCase
deriving DecidableEq, Repr

/-- A token of an expression. -/
inductive Token where
  /-- A placeholder, with the argument it stands for. -/
  | place (value : Value)
  /-- A literal, a column or a type, by its text. -/
  | leaf (text : String)
  /-- A query with its parentheses. -/
  | query (pieces : List Piece)
  | operator (operator : BinaryOperator)
  | keyword (keyword : Keyword)
  | function (function : SqlFunction)
  /-- The function that joins texts in dialects without an operator for it. -/
  | concat
  | opening
  | closing
  | comma

/-- The word `not`, where it is wanted. -/
def Token.negation (negated : Bool) : List Token :=
  if negated then [.keyword .not] else []

/-- The text of a value without its sign. -/
def Value.magnitude : Value → String
  | .integer number => toString number.toInt.natAbs
  | .float number => number.magnitudeText
  | value => value.literal

/-- The tokens of a literal: a negative number is a minus sign and its magnitude. -/
def Dialect.literalTokens (dialect : Dialect) (value : Value) : List Token :=
  if value.isNegative && value.hasLiteral then [.operator .subtract, .leaf value.magnitude]
  else [.leaf (dialect.literal value)]

namespace Lexeme

/-- The tokens of a symbol. -/
def cut (dialect : Dialect) : Lexeme → List Token
  | .word text => [.leaf text]
  | .argument value => [.place value]
  | .literal value => dialect.literalTokens value
  | .column resolved => [.leaf resolved.text]
  | .operator symbol => [.operator symbol]
  | .not => [.keyword .not]
  | .minus => [.operator .subtract]
  | .between negated => Token.negation negated ++ [.keyword .between]
  | .like negated => Token.negation negated ++ [.keyword .like]
  | .isIn negated => Token.negation negated ++ [.keyword .isIn]
  | .isNull negated => .keyword .is :: Token.negation negated ++ [.keyword .null]
  | .exists negated => Token.negation negated ++ [.keyword .exists]
  | .opening _ => [.opening]
  | .closing _ => [.closing]
  | .comma => [.comma]
  | .function called => [.function called]
  | .concat => [.concat]
  | .distinct => [.keyword .distinct]
  | .star => [.operator .multiply]
  | .cast => [.keyword .cast]
  | .asType type => [.keyword .asType, .leaf (dialect.castName type)]
  | .over => [.keyword .over]
  | .partitionBy => [.keyword .partition, .keyword .by]
  | .orderBy _ => [.keyword .order, .keyword .by]
  | .descending => [.keyword .descending]
  | .case => [.keyword .case]
  | .when => [.keyword .when]
  | .thenResult => [.keyword .thenResult]
  | .otherwise => [.keyword .otherwise]
  | .endCase => [.keyword .endCase]
  | .query body => [.query ((Lexeme.query body).pieces dialect)]
  | .common handle _ => [.leaf handle.displayName]
  | .fault _ => []

/-- Whatever can be written is a token at least. -/
theorem cut_ne_nil (dialect : Dialect) {lexeme : Lexeme}
    (writable : ∀ error, lexeme ≠ .fault error) : lexeme.cut dialect ≠ [] := by
  cases lexeme with
  | fault error => exact (writable error rfl).elim
  | literal value =>
      rw [cut, Dialect.literalTokens]
      split <;> exact List.cons_ne_nil _ _
  | between negated | like negated | isIn negated | «exists» negated =>
      cases negated <;> exact List.cons_ne_nil _ _
  | _ => exact List.cons_ne_nil _ _

/-- The tokens of some symbols. -/
def tokens (dialect : Dialect) (lexemes : List Lexeme) : List Token :=
  lexemes.flatMap (cut dialect)

end Lexeme

end SqlSelect
