import SqlSelect.Query
import SqlSelect.Database

/-!
# Lexemes

What is written for a statement, symbol by symbol, before it is spelled.  A
bracketed query is one lexeme, so that the expression around it can be read
without it.  Spelling turns lexemes into pieces of text, arguments, and parts that
cannot be written.  Of a common table only its name is spelled in its place.
-/

namespace SqlSelect

/-- A symbol of a written statement. -/
inductive Lexeme where
  /-- A keyword, a name or a suffix, with the blanks around it. -/
  | word (text : String)
  /-- A value in its place, to be handed over beside the text. -/
  | argument (value : Value)
  /-- A value written out. -/
  | literal (value : Value)
  | column (column : ResolvedColumn)
  | operator (operator : BinaryOperator)
  | not
  | minus
  | between (negated : Bool)
  | like (negated : Bool)
  | isIn (negated : Bool)
  | isNull (negated : Bool)
  | exists (negated : Bool)
  /-- An opening parenthesis; `grouping` if only precedence asks for it. -/
  | opening (grouping : Bool)
  /-- The closing parenthesis that goes with an opening one. -/
  | closing (grouping : Bool)
  | comma
  | function (function : SqlFunction)
  /-- The function that joins texts in dialects without an operator for it. -/
  | concat
  | distinct
  | star
  | cast
  | asType (type : DataType)
  | over
  | partitionBy
  /-- ORDER BY inside a window, behind a partition or not. -/
  | orderBy (following : Bool)
  | descending
  | case
  | when
  | thenResult
  | otherwise
  | endCase
  /-- A query in parentheses. -/
  | query (body : List Lexeme)
  /-- The name of a common table, and its query in parentheses, held back until the
  table is declared. -/
  | common (handle : Alias) (definition : Unit → Lexeme)
  /-- A part of the statement that cannot be written. -/
  | fault (error : QueryError)

/-- A piece of the text of a statement. -/
inductive Piece where
  /-- Fixed text. -/
  | text (text : String)
  /-- The place of an argument. -/
  | argument (value : Value)
  /-- A part of the statement that cannot be written. -/
  | fault (error : QueryError)

namespace Lexeme

/-- Put a body in parentheses if its place asks for them. -/
def grouped (needed : Bool) (body : List Lexeme) : List Lexeme :=
  if needed then .opening true :: body ++ [.closing true] else body

/-- Put a body in the parentheses that belong to the symbol ahead of it. -/
def enclosed (body : List Lexeme) : List Lexeme :=
  .opening false :: body ++ [.closing false]

/-- The items one after another, with commas between them. -/
def separated : List (List Lexeme) → List Lexeme
  | [] => []
  | [item] => item
  | item :: rest => item ++ .comma :: separated rest

/-- The text of a symbol that `not` may stand ahead of. -/
def negatable (negated : Bool) (positive negative : String) : String :=
  if negated then negative else positive

/-- The text of an operator between its operands. -/
def operatorText (dialect : Dialect) : BinaryOperator → String
  | .concat => " " ++ dialect.concatOperator?.getD BinaryOperator.concat.symbol ++ " "
  | other => " " ++ other.symbol ++ " "

mutual

/-- Spell a symbol for a dialect. -/
def pieces (dialect : Dialect) : Lexeme → List Piece
  | .word text => [.text text]
  | .argument value => [.argument value]
  | .literal value => [.text (dialect.literal value)]
  | .column resolved => [.text resolved.text]
  | .operator symbol => [.text (operatorText dialect symbol)]
  | .not => [.text "not "]
  | .minus => [.text "-"]
  | .between negated => [.text (negatable negated " between " " not between ")]
  | .like negated => [.text (negatable negated " like " " not like ")]
  | .isIn negated => [.text (negatable negated " in " " not in ")]
  | .isNull negated => [.text (negatable negated " is null" " is not null")]
  | .exists negated => [.text (negatable negated "exists " "not exists ")]
  | .opening _ => [.text "("]
  | .closing _ => [.text ")"]
  | .comma => [.text ", "]
  | .function called => [.text (dialect.functionName called)]
  | .concat => [.text "concat"]
  | .distinct => [.text "distinct "]
  | .star => [.text "*"]
  | .cast => [.text "cast"]
  | .asType type => [.text (" as " ++ dialect.castName type)]
  | .over => [.text " over "]
  | .partitionBy => [.text "partition by "]
  | .orderBy following => [.text (if following then " order by " else "order by ")]
  | .descending => [.text " desc"]
  | .case => [.text "case"]
  | .when => [.text " when "]
  | .thenResult => [.text " then "]
  | .otherwise => [.text " else "]
  | .endCase => [.text " end"]
  | .query body => .text "(" :: allPieces dialect body ++ [.text ")"]
  | .common handle _ => [.text handle.displayName]
  | .fault error => [.fault error]

/-- Spell symbols one after another. -/
def allPieces (dialect : Dialect) : List Lexeme → List Piece
  | [] => []
  | lexeme :: rest => lexeme.pieces dialect ++ allPieces dialect rest

end

@[simp] theorem allPieces_nil (dialect : Dialect) : allPieces dialect [] = [] := rfl

@[simp] theorem allPieces_cons (dialect : Dialect) (lexeme : Lexeme) (rest : List Lexeme) :
    allPieces dialect (lexeme :: rest) = lexeme.pieces dialect ++ allPieces dialect rest := rfl

@[simp] theorem allPieces_append (dialect : Dialect) (left right : List Lexeme) :
    allPieces dialect (left ++ right) = allPieces dialect left ++ allPieces dialect right := by
  induction left with
  | nil => rfl
  | cons lexeme rest ih => simp [ih]

end Lexeme

end SqlSelect
