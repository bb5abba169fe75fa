import SqlSelect.Proofs.Grammar.Unambiguous
import SqlSelect.Proofs.Spelling.Cut

/-!
# Expressions are read as they were built

The text of an expression is read back as the phrase of that expression, and as no other.
Parentheses stand only where a child binds more loosely than its place allows, so the
induction over the tree shows what is read at the precedence of each expression, and that
every child is read at the level of its place.
-/

namespace SqlSelect

/-- Both clauses of windows are written. -/
structure Dialect.HasWindows (dialect : Dialect) : Prop where
  partition : dialect.supportsPartition = true
  order : dialect.supportsWindowOrder = true

/-! ## The phrase of an expression -/

/-- A literal by its text.  A negative number is read as a negation, and a number without
a literal is an argument. -/
def Dialect.literalPhrase (dialect : Dialect) (value : Value) : Phrase :=
  if !value.hasLiteral then .place value
  else if value.isNegative then .negate (.leaf value.magnitude)
  else .leaf (dialect.literal value)

/-- The pieces of a query in parentheses. -/
def Query.enclosedPieces (database : Database) (query : Query) : List Piece :=
  (Lexeme.query (query.lexemes database)).pieces database.dialect

mutual

/-- What an expression should be read as: the tree itself, with its leaves, its types and
its sub-queries by their text. -/
@[simp] def Expr.phrase (database : Database) : Expr → Phrase
  | .argument value => .place value
  | .literal value => database.dialect.literalPhrase value
  | .column reference => .leaf reference.describe
  | .not operand => .not (operand.phrase database)
  | .negate operand => .negate (operand.phrase database)
  | .binary operator left right =>
    .binary operator (left.phrase database) (right.phrase database)
  | .between negated operand low high =>
    .between negated (operand.phrase database) (low.phrase database) (high.phrase database)
  | .like negated operand pattern =>
    .like negated (operand.phrase database) (pattern.phrase database)
  | .inList negated operand items =>
    .inList negated (operand.phrase database) (Expr.listPhrases database items)
  | .inQuery negated operand query =>
    .inQuery negated (operand.phrase database) (query.enclosedPieces database)
  | .exists negated query => .exists negated (query.enclosedPieces database)
  | .isNull negated operand => .isNull negated (operand.phrase database)
  | .call function distinct arguments =>
    .call function distinct (Expr.listPhrases database arguments)
  | .countAll => .countAll
  | .cast operand type => .cast (operand.phrase database) (database.dialect.castName type)
  | .window function arguments partition order =>
    .window function (Expr.listPhrases database arguments) (Expr.listPhrases database partition)
      (Expr.orderPhrases database order)
  | .subquery query => .query (query.enclosedPieces database)
  | .case branches otherwise =>
    .case (Expr.branchPhrases database branches) (Expr.optionPhrase database otherwise)

def Expr.listPhrases (database : Database) : List Expr → List Phrase
  | [] => []
  | expr :: rest => expr.phrase database :: Expr.listPhrases database rest

def Expr.orderPhrases (database : Database) : List (OrderItem Expr) → List (OrderItem Phrase)
  | [] => []
  | ⟨expr, descending⟩ :: rest =>
    ⟨expr.phrase database, descending⟩ :: Expr.orderPhrases database rest

def Expr.branchPhrases (database : Database) : List (Branch Expr) → List (Branch Phrase)
  | [] => []
  | ⟨condition, result⟩ :: rest =>
    ⟨condition.phrase database, result.phrase database⟩ :: Expr.branchPhrases database rest

def Expr.optionPhrase (database : Database) : Option Expr → Option Phrase
  | none => none
  | some expr => some (expr.phrase database)

end

/-- The tokens of an expression. -/
def Expr.tokens (database : Database) (expr : Expr) : List Token :=
  Lexeme.tokens database.dialect (expr.lexemes database)

/-- An expression's tokens, with the phrase they should be read as. -/
def Expr.reading (database : Database) (expr : Expr) : Reading :=
  ⟨expr.tokens database, expr.phrase database⟩

/-! ## Tokens and writability of composed symbols -/

namespace Lexeme

variable {dialect : Dialect}

@[simp] theorem tokens_nil : tokens dialect [] = [] := rfl

@[simp] theorem tokens_cons (lexeme : Lexeme) (rest : List Lexeme) :
    tokens dialect (lexeme :: rest) =
      lexeme.cut dialect ++ tokens dialect rest := by
  simp [tokens]

@[simp] theorem tokens_append (left right : List Lexeme) :
    tokens dialect (left ++ right) = tokens dialect left ++ tokens dialect right := by
  simp [tokens]

@[simp] theorem tokens_enclosed (body : List Lexeme) :
    tokens dialect (enclosed body) = Token.enclosed (tokens dialect body) := by
  simp [enclosed, Token.enclosed, cut]

@[simp] theorem tokens_separated (items : List (List Lexeme)) :
    tokens dialect (separated items) = Token.separated (items.map (tokens dialect)) := by
  induction items with
  | nil => rfl
  | cons item rest ih =>
      cases rest with
      | nil => rfl
      | cons second others =>
          rw [List.map_cons] at ih
          simp [separated, Token.separated, ih, cut]

theorem writable_cons {lexeme : Lexeme} {rest : List Lexeme} :
    Writable dialect (lexeme :: rest) ↔
      Piece.check (lexeme.pieces dialect) = .ok () ∧ Writable dialect rest := by
  simp [Writable, Piece.check_append]

theorem writable_enclosed {body : List Lexeme} :
    Writable dialect (enclosed body) ↔ Writable dialect body := by
  simp [enclosed, Writable, pieces, Piece.check, Piece.check_append]

theorem writable_grouped {needed : Bool} {body : List Lexeme} :
    Writable dialect (grouped needed body) ↔ Writable dialect body := by
  cases needed with
  | false => rfl
  | true => simp [grouped, Writable, pieces, Piece.check, Piece.check_append]

theorem writable_separated {items : List (List Lexeme)} :
    Writable dialect (separated items) ↔ ∀ item ∈ items, Writable dialect item := by
  induction items with
  | nil => simp [separated, Writable, Piece.check]
  | cons item rest ih =>
      cases rest with
      | nil => simp [separated]
      | cons second others =>
          have split : separated (item :: second :: others) =
              item ++ .comma :: separated (second :: others) := rfl
          rw [split, writable_append, writable_cons, ih, List.forall_mem_cons]
          simp [pieces, Piece.check]

/-- A clause of a window, left out where it is empty. -/
def clause (head : Lexeme) (items : List (List Lexeme)) : List Lexeme :=
  if items.isEmpty then [] else head :: separated items

theorem tokens_clause {head : Lexeme} {keyword : Keyword} (items : List (List Lexeme))
    (words : head.cut dialect = [.keyword keyword, .keyword .by]) :
    tokens dialect (clause head items) = Token.clause keyword (items.map (tokens dialect)) := by
  cases items with
  | nil => rfl
  | cons item rest =>
      have written : clause head (item :: rest) = head :: separated (item :: rest) := rfl
      rw [written, tokens_cons, words, tokens_separated]
      rfl

theorem Writable.of_clause {head : Lexeme} {items : List (List Lexeme)}
    (writable : Writable dialect (clause head items)) :
    ∀ item ∈ items, Writable dialect item := by
  cases items with
  | nil =>
      intro item member
      cases member
  | cons item rest =>
      have written : clause head (item :: rest) = head :: separated (item :: rest) := rfl
      rw [written, writable_cons] at writable
      exact writable_separated.mp writable.2

end Lexeme

/-! ## Readings in their places -/

namespace Reads

variable {dialect : Dialect} {notLevel : NotLevel} {level target : Precedence} {tokens : List Token}
variable {phrase : Phrase}

/-- What is read at a level is read at every looser one. -/
theorem loosen (reads : Reads dialect notLevel level tokens phrase)
    (looser : target.level ≤ level.level) : Reads dialect notLevel target tokens phrase := by
  generalize gap : level.level - target.level = steps
  induction steps generalizing target with
  | zero =>
      have same : target = level := Precedence.level_injective _ _ (by omega)
      exact same ▸ reads
  | succ steps ih =>
      have next : target.tighter.level = target.level + 1 := by
        cases target <;> first | rfl | (cases level <;> simp [Precedence.level] at gap)
      exact .tighter (ih (by omega) (by omega))

theorem group_any (reads : Reads dialect notLevel level tokens phrase) :
    Reads dialect notLevel target (Token.enclosed tokens) phrase := by
  have inner : Reads dialect notLevel .or tokens phrase := reads.loosen (Nat.zero_le _)
  exact (Reads.group inner).loosen (by cases target <;> decide)

end Reads

/-- A child is read at the level that its place requires, in parentheses where its own
precedence is too loose. -/
theorem Expr.placed_reads {database : Database} {child : Expr} {body : List Lexeme}
    {phrase : Phrase} (required : Precedence) (strict : Bool)
    (reads : Reads database.dialect .declared (child.precedence database.dialect)
      (Lexeme.tokens database.dialect body) phrase) :
    Reads database.dialect .declared (if strict then required.tighter else required)
      (Lexeme.tokens database.dialect (child.placed database required strict body)) phrase := by
  rw [Expr.placed, Lexeme.grouped]
  cases needed : child.needsGroup database.dialect required strict with
  | true =>
      have tokens : Lexeme.tokens database.dialect
          (.opening true :: body ++ [.closing true]) =
            Token.enclosed (Lexeme.tokens database.dialect body) := by
        simp [Token.enclosed, Lexeme.cut]
      rw [if_pos rfl, tokens]
      exact reads.group_any
  | false =>
      rw [if_neg Bool.false_ne_true]
      apply reads.loosen
      simp only [Expr.needsGroup, Bool.or_eq_false_iff, decide_eq_false_iff_not,
        Nat.not_lt] at needed
      cases strict with
      | false => exact needed.1
      | true =>
          have above : (child.precedence database.dialect).level ≠ required.level := by
            simpa using needed.2
          have next : required.tighter.level ≤ required.level + 1 := by
            cases required <;> decide
          rw [if_pos rfl]
          omega

theorem Expr.precedence_binary {dialect : Dialect} {operator : BinaryOperator}
    {left right : Expr} (written : ¬(operator = .concat ∧ dialect.concatOperator? = none)) :
    (Expr.binary operator left right).precedence dialect = operator.precedence := by
  cases operator with
  | concat =>
      have some : dialect.concatOperator?.isNone = false := by
        cases found : dialect.concatOperator? with
        | none => exact absurd ⟨rfl, found⟩ written
        | some _ => rfl
      simp [precedence, some, BinaryOperator.precedence]
  | _ => rfl

theorem Dialect.reads_literal (dialect : Dialect) (value : Value) :
    Reads dialect .declared ((Expr.literal value).precedence dialect)
      (Lexeme.tokens dialect [if value.hasLiteral then .literal value else .argument value])
      (dialect.literalPhrase value) := by
  cases finite : value.hasLiteral with
  | false =>
      simp only [literalPhrase, finite, Bool.not_false, if_true, Bool.false_eq_true, if_false]
      have place : Reads dialect .declared .primary [.place value] (.place value) := .place value
      exact place.loosen (by cases Expr.precedence dialect (.literal value) <;> decide)
  | true =>
      cases negative : value.isNegative with
      | false =>
          simp only [literalPhrase, finite, negative, Bool.not_true, Bool.false_eq_true,
            if_false, if_true, Expr.precedence, Lexeme.tokens_cons, Lexeme.tokens_nil,
            Lexeme.cut, literalTokens, Bool.false_and]
          exact .leaf _
      | true =>
          simp only [literalPhrase, finite, negative, Bool.not_true, Bool.false_eq_true,
            if_false, if_true, Expr.precedence, Lexeme.tokens_cons, Lexeme.tokens_nil,
            Lexeme.cut, literalTokens, Bool.true_and]
          exact .negate (.leaf _)

/-! ## Lists of readings -/

namespace Expr

variable (database : Database)

/-- The reading of an entry of an ORDER BY list. -/
def orderReading (item : OrderItem Expr) : OrderItem Reading :=
  ⟨item.expr.reading database, item.descending⟩

/-- The readings of a branch of a CASE. -/
def branchReading (branch : Branch Expr) : Branch Reading :=
  ⟨branch.condition.reading database, branch.result.reading database⟩

theorem tokens_listLexemes (exprs : List Expr) :
    (listLexemes database exprs).map (Lexeme.tokens database.dialect) =
      (exprs.map (reading database)).map Reading.tokens := by
  induction exprs with
  | nil => rfl
  | cons expr rest ih => rw [listLexemes, List.map_cons, ih]; rfl

theorem listPhrases_eq (exprs : List Expr) :
    listPhrases database exprs = (exprs.map (reading database)).map Reading.phrase := by
  induction exprs with
  | nil => rfl
  | cons expr rest ih => rw [listPhrases, ih]; rfl

theorem tokens_orderLexemes (items : List (OrderItem Expr)) :
    (orderLexemes database items).map (Lexeme.tokens database.dialect) =
      (items.map (orderReading database)).map Reading.orderTokens := by
  induction items with
  | nil => rfl
  | cons item rest ih =>
      rcases item with ⟨expr, descending⟩
      rw [orderLexemes, List.map_cons, ih]
      cases descending <;>
        simp [orderReading, Reading.orderTokens, reading, tokens, Lexeme.cut]

theorem orderPhrases_eq (items : List (OrderItem Expr)) :
    orderPhrases database items = (items.map (orderReading database)).map fun item =>
      ⟨item.expr.phrase, item.descending⟩ := by
  induction items with
  | nil => rfl
  | cons item rest ih => rw [orderPhrases, ih]; rfl

theorem tokens_branchLexemes (branches : List (Branch Expr)) :
    Lexeme.tokens database.dialect (branchLexemes database branches) =
      (branches.map (branchReading database)).flatMap Reading.branchTokens := by
  induction branches with
  | nil => rfl
  | cons branch rest ih =>
      simp [branchLexemes, ih, branchReading, Reading.branchTokens, reading, tokens,
        Lexeme.cut]

theorem branchPhrases_eq (branches : List (Branch Expr)) :
    branchPhrases database branches = (branches.map (branchReading database)).map fun branch =>
      ⟨branch.condition.phrase, branch.result.phrase⟩ := by
  induction branches with
  | nil => rfl
  | cons branch rest ih => rw [branchPhrases, ih]; rfl

theorem optionPhrase_eq (expr : Option Expr) :
    optionPhrase database expr = (expr.map (reading database)).map Reading.phrase := by
  cases expr <;> rfl

variable {database} in
open Lexeme in
/-- A window that can be written has both of its clauses. -/
theorem lexemes_window {function : SqlFunction} {arguments partition : List Expr}
    {order : List (OrderItem Expr)} (windows : database.dialect.HasWindows)
    (renders : Writable database.dialect
      ((Expr.window function arguments partition order).lexemes database)) :
    (Expr.window function arguments partition order).lexemes database =
      .function function :: enclosed (separated (listLexemes database arguments)) ++
        .over :: enclosed (clause .partitionBy (listLexemes database partition) ++
          clause (.orderBy (!partition.isEmpty)) (orderLexemes database order)) := by
  rw [lexemes] at renders ⊢
  simp only [windows.partition, windows.order, Bool.and_true] at renders ⊢
  split at renders
  · cases renders
  · rename_i numbered
    rw [if_neg numbered]
    cases partition <;> cases order <;> rfl

end Expr

/-! ## Reading what was written -/

/-- An expression that can be written is read as its phrase, at its precedence. -/
def Expr.ReadsBack (database : Database) (expr : Expr) : Prop :=
  Lexeme.Writable database.dialect (expr.lexemes database) →
    Reads database.dialect .declared (expr.precedence database.dialect) (expr.tokens database)
      (expr.phrase database)

namespace Expr.ReadsBack

open Lexeme

variable {database : Database} {operand left right : Expr}

theorem loosest {expr : Expr} (back : expr.ReadsBack database)
    (writable : Writable database.dialect (expr.lexemes database)) :
    Reads database.dialect .declared .or (expr.tokens database) (expr.phrase database) :=
  (back writable).loosen (Nat.zero_le _)

theorem placed {child : Expr} {required : Precedence} {strict : Bool}
    (back : child.ReadsBack database)
    (writable : Writable database.dialect
      (child.placed database required strict (child.lexemes database))) :
    Reads database.dialect .declared (if strict then required.tighter else required)
      (Lexeme.tokens database.dialect
        (child.placed database required strict (child.lexemes database)))
      (child.phrase database) := by
  rw [Expr.placed, writable_grouped] at writable
  exact child.placed_reads required strict (back writable)

theorem list {exprs : List Expr} (backs : ∀ expr ∈ exprs, expr.ReadsBack database)
    (writable : ∀ item ∈ listLexemes database exprs, Writable database.dialect item) :
    ∀ item ∈ exprs.map (reading database),
      Reads database.dialect .declared .or item.tokens item.phrase := by
  induction exprs with
  | nil =>
      intro item member
      cases member
  | cons expr rest ih =>
      rw [listLexemes, List.forall_mem_cons] at writable
      rw [List.forall_mem_cons] at backs
      rw [List.map_cons, List.forall_mem_cons]
      exact ⟨backs.1.loosest writable.1, ih backs.2 writable.2⟩

theorem order {items : List (OrderItem Expr)}
    (backs : ∀ item ∈ items, item.expr.ReadsBack database)
    (writable : ∀ item ∈ orderLexemes database items, Writable database.dialect item) :
    ∀ item ∈ items.map (orderReading database),
      Reads database.dialect .declared .or item.expr.tokens item.expr.phrase := by
  induction items with
  | nil =>
      intro item member
      cases member
  | cons item rest ih =>
      rw [orderLexemes, List.forall_mem_cons, writable_append] at writable
      rw [List.forall_mem_cons] at backs
      rw [List.map_cons, List.forall_mem_cons]
      exact ⟨backs.1.loosest writable.1.1, ih backs.2 writable.2⟩

theorem branches {items : List (Branch Expr)}
    (backs : ∀ branch ∈ items,
      branch.condition.ReadsBack database ∧ branch.result.ReadsBack database)
    (writable : Writable database.dialect (branchLexemes database items)) :
    ∀ branch ∈ items.map (branchReading database),
      Reads database.dialect .declared .or branch.condition.tokens branch.condition.phrase ∧
        Reads database.dialect .declared .or branch.result.tokens branch.result.phrase := by
  induction items with
  | nil =>
      intro branch member
      cases member
  | cons branch rest ih =>
      rw [branchLexemes, writable_append, writable_append, writable_cons,
        writable_cons] at writable
      rw [List.forall_mem_cons] at backs
      rw [List.map_cons, List.forall_mem_cons]
      have conditionReads := backs.1.1.loosest writable.1.1.2
      have resultReads := backs.1.2.loosest writable.1.2.2
      exact ⟨⟨conditionReads, resultReads⟩, ih backs.2 writable.2⟩

/-! ### One constructor after another -/

theorem not (back : operand.ReadsBack database) : (Expr.not operand).ReadsBack database := by
  intro renders
  rw [Expr.lexemes, writable_cons] at renders
  have reads := back.placed renders.2
  have affirmed := reads.not_exists (by decide) []
  rw [List.append_nil] at affirmed
  exact .not affirmed reads

theorem negate (back : operand.ReadsBack database) :
    (Expr.negate operand).ReadsBack database := by
  intro renders
  rw [Expr.lexemes, writable_cons] at renders
  exact .negate (back.placed renders.2)

/-- Without an operator for it, a concatenation is a call and binds as one. -/
theorem concat (missing : database.dialect.concatOperator? = none)
    (leftBack : left.ReadsBack database) (rightBack : right.ReadsBack database) :
    (Expr.binary .concat left right).ReadsBack database := by
  intro renders
  rw [Expr.lexemes, if_pos ⟨rfl, missing⟩, writable_cons, writable_enclosed, writable_append,
    writable_cons] at renders
  have leftReads := leftBack.loosest renders.2.1
  have rightReads := rightBack.loosest renders.2.2.2
  have whole := Reads.concat missing leftReads rightReads
  rw [Expr.tokens, Expr.lexemes, if_pos ⟨rfl, missing⟩, Expr.precedence, missing]
  simpa [cut, Expr.tokens, Expr.phrase] using whole

theorem binary {operator : BinaryOperator}
    (infixed : ¬(operator = .concat ∧ database.dialect.concatOperator? = none))
    (leftBack : left.ReadsBack database) (rightBack : right.ReadsBack database) :
    (Expr.binary operator left right).ReadsBack database := by
  intro renders
  rw [Expr.lexemes, if_neg infixed, writable_append, writable_cons] at renders
  have leftReads := leftBack.placed renders.1
  have rightReads := rightBack.placed renders.2.2
  have known : operator = .concat → database.dialect.concatOperator?.isSome := by
    intro concat
    rw [← Option.ne_none_iff_isSome]
    intro none
    exact infixed ⟨concat, none⟩
  have whole := Reads.binary operator (Precedence.mem_operators.mpr rfl) known leftReads rightReads
  rw [Expr.tokens, Expr.lexemes, if_neg infixed, Expr.precedence_binary infixed]
  simpa [cut, Expr.phrase] using whole

theorem between (negated : Bool) {low high : Expr} (operandBack : operand.ReadsBack database)
    (lowBack : low.ReadsBack database) (highBack : high.ReadsBack database) :
    (Expr.between negated operand low high).ReadsBack database := by
  intro renders
  rw [Expr.lexemes, writable_append, writable_append, writable_cons, writable_cons] at renders
  have operandReads := operandBack.placed renders.1.1
  have lowReads := lowBack.placed renders.1.2.2
  have highReads := highBack.placed renders.2.2
  have whole := Reads.between negated operandReads lowReads highReads
  rw [Expr.tokens, Expr.lexemes, Expr.precedence, Expr.phrase]
  simpa [cut] using whole

theorem like (negated : Bool) {pattern : Expr} (operandBack : operand.ReadsBack database)
    (patternBack : pattern.ReadsBack database) :
    (Expr.like negated operand pattern).ReadsBack database := by
  intro renders
  rw [Expr.lexemes, writable_append, writable_cons] at renders
  have operandReads := operandBack.placed renders.1
  have patternReads := patternBack.placed renders.2.2
  have whole := Reads.like negated operandReads patternReads
  rw [Expr.tokens, Expr.lexemes, Expr.precedence, Expr.phrase]
  simpa [cut] using whole

theorem inList (negated : Bool) {items : List Expr} (operandBack : operand.ReadsBack database)
    (itemBacks : ∀ item ∈ items, item.ReadsBack database) :
    (Expr.inList negated operand items).ReadsBack database := by
  intro renders
  rw [Expr.lexemes, writable_append, writable_cons, writable_enclosed,
    writable_separated] at renders
  have operandReads := operandBack.placed renders.1
  have itemReads := list itemBacks renders.2.2
  have whole := Reads.inList negated _ operandReads itemReads
  rw [← tokens_listLexemes, ← listPhrases_eq] at whole
  rw [Expr.tokens, Expr.lexemes, Expr.precedence, Expr.phrase]
  simpa [cut] using whole

theorem inQuery (negated : Bool) (query : Query) (operandBack : operand.ReadsBack database) :
    (Expr.inQuery negated operand query).ReadsBack database := by
  intro renders
  rw [Expr.lexemes, writable_append] at renders
  have operandReads := operandBack.placed renders.1
  have whole := Reads.inQuery negated (query.enclosedPieces database) operandReads
  rw [Expr.tokens, Expr.lexemes, Expr.precedence, Expr.phrase]
  simpa [cut, Query.enclosedPieces] using whole

theorem «exists» (negated : Bool) (query : Query) :
    (Expr.exists negated query).ReadsBack database := by
  intro _
  have whole := @Reads.exists database.dialect .declared negated (query.enclosedPieces database)
  rw [Expr.tokens, Expr.lexemes, Expr.precedence, Expr.phrase]
  simpa [cut, Query.enclosedPieces] using whole

theorem isNull (negated : Bool) (operandBack : operand.ReadsBack database) :
    (Expr.isNull negated operand).ReadsBack database := by
  intro renders
  rw [Expr.lexemes, writable_append] at renders
  have operandReads := operandBack.placed renders.1
  have whole := Reads.isNull negated operandReads
  rw [Expr.tokens, Expr.lexemes, Expr.precedence, Expr.phrase]
  simpa [cut] using whole

theorem call (function : SqlFunction) (distinct : Bool) {arguments : List Expr}
    (argumentBacks : ∀ argument ∈ arguments, argument.ReadsBack database) :
    (Expr.call function distinct arguments).ReadsBack database := by
  intro renders
  rw [Expr.lexemes, writable_cons, writable_enclosed, writable_append,
    writable_separated] at renders
  have argumentReads := list argumentBacks renders.2.2
  have whole := Reads.call function distinct _ argumentReads
  rw [← tokens_listLexemes, ← listPhrases_eq] at whole
  rw [Expr.tokens, Expr.lexemes, Expr.precedence, Expr.phrase]
  cases distinct <;> simpa [cut] using whole

theorem cast (type : DataType) (operandBack : operand.ReadsBack database) :
    (Expr.cast operand type).ReadsBack database := by
  intro renders
  rw [Expr.lexemes, writable_cons, writable_enclosed, writable_append] at renders
  have operandReads := operandBack.loosest renders.2.1
  have whole := Reads.cast (database.dialect.castName type) operandReads
  rw [Expr.tokens, Expr.lexemes, Expr.precedence, Expr.phrase]
  simpa [cut, Expr.tokens] using whole

theorem window (windows : database.dialect.HasWindows) (function : SqlFunction)
    {arguments partition : List Expr} {items : List (OrderItem Expr)}
    (argumentBacks : ∀ argument ∈ arguments, argument.ReadsBack database)
    (partitionBacks : ∀ item ∈ partition, item.ReadsBack database)
    (orderBacks : ∀ item ∈ items, item.expr.ReadsBack database) :
    (Expr.window function arguments partition items).ReadsBack database := by
  intro renders
  have written := lexemes_window windows renders
  rw [written, writable_append, writable_cons, writable_cons, writable_enclosed,
    writable_enclosed, writable_append, writable_separated] at renders
  have argumentReads := list argumentBacks renders.1.2
  have partitionReads := list partitionBacks renders.2.2.1.of_clause
  have orderReads := order orderBacks renders.2.2.2.of_clause
  have partitionTokens : Lexeme.tokens database.dialect
      (clause .partitionBy (listLexemes database partition)) = _ := tokens_clause _ rfl
  have orderTokens : Lexeme.tokens database.dialect
      (clause (.orderBy (!partition.isEmpty)) (orderLexemes database items)) = _ :=
    tokens_clause _ (by cases partition <;> rfl)
  have whole := Reads.window function _ _ _ argumentReads partitionReads orderReads
  rw [← tokens_listLexemes, ← tokens_listLexemes, ← tokens_orderLexemes,
    ← listPhrases_eq, ← listPhrases_eq, ← orderPhrases_eq] at whole
  rw [Expr.tokens, written, Expr.precedence, Expr.phrase]
  simpa [partitionTokens, orderTokens, cut] using whole

theorem case {items : List (Branch Expr)} {otherwise : Option Expr}
    (branchBacks : ∀ branch ∈ items,
      branch.condition.ReadsBack database ∧ branch.result.ReadsBack database)
    (otherwiseBack : ∀ expr ∈ otherwise, expr.ReadsBack database) :
    (Expr.case items otherwise).ReadsBack database := by
  intro renders
  rw [Expr.lexemes, writable_append, List.cons_append, writable_cons, writable_append] at renders
  have branchReads := branches branchBacks renders.1.2.1
  have otherwiseReads : ∀ found ∈ otherwise.map (reading database),
      Reads database.dialect .declared .or found.tokens found.phrase := by
    intro found member
    cases otherwise with
    | none => cases member
    | some expr =>
        cases member
        exact (otherwiseBack expr rfl).loosest (writable_cons.mp renders.1.2.2).2
  have whole := Reads.case _ _ (fun branch member => (branchReads branch member).1)
    (fun branch member => (branchReads branch member).2) otherwiseReads
  rw [← tokens_branchLexemes, ← branchPhrases_eq, ← optionPhrase_eq] at whole
  rw [Expr.tokens, Expr.lexemes, Expr.precedence, Expr.phrase]
  cases otherwise with
  | none => simpa [optionLexemes, Reading.otherwiseTokens, cut] using whole
  | some otherwise =>
      simpa [optionLexemes, Reading.otherwiseTokens, Expr.reading, Expr.tokens, cut] using whole

end Expr.ReadsBack

/-! ### All of them -/

mutual

/-- Every expression is read back. -/
theorem Expr.readsBack {database : Database} (windows : database.dialect.HasWindows)
    (expr : Expr) : expr.ReadsBack database := by
  cases expr with
  | argument value => exact fun _ => .place value
  | literal value => exact fun _ => database.dialect.reads_literal value
  | column reference =>
      intro renders
      cases reference with
      | resolved column => exact .leaf column.text
      | unresolved _ _ => cases renders
  | not operand => exact .not (operand.readsBack windows)
  | negate operand => exact .negate (operand.readsBack windows)
  | binary operator left right =>
      by_cases called : operator = .concat ∧ database.dialect.concatOperator? = none
      · rcases called with ⟨rfl, missing⟩
        exact .concat missing (left.readsBack windows) (right.readsBack windows)
      · exact .binary called (left.readsBack windows) (right.readsBack windows)
  | between negated operand low high =>
      exact .between negated (operand.readsBack windows) (low.readsBack windows)
        (high.readsBack windows)
  | like negated operand pattern =>
      exact .like negated (operand.readsBack windows) (pattern.readsBack windows)
  | inList negated operand items =>
      exact .inList negated (operand.readsBack windows) (Expr.listReadsBack windows items)
  | inQuery negated operand query => exact .inQuery negated query (operand.readsBack windows)
  | «exists» negated query => exact .exists negated query
  | isNull negated operand => exact .isNull negated (operand.readsBack windows)
  | call function distinct arguments =>
      exact .call function distinct (Expr.listReadsBack windows arguments)
  | countAll => exact fun _ => .countAll
  | cast operand type => exact .cast type (operand.readsBack windows)
  | window function arguments partition order =>
      exact .window windows function (Expr.listReadsBack windows arguments)
        (Expr.listReadsBack windows partition) (Expr.orderReadsBack windows order)
  | subquery query => exact fun _ => .query _
  | case branches otherwise =>
      exact .case (Expr.branchReadsBack windows branches) (Expr.optionReadsBack windows otherwise)
termination_by structural expr

theorem Expr.listReadsBack {database : Database} (windows : database.dialect.HasWindows)
    (exprs : List Expr) : ∀ expr ∈ exprs, expr.ReadsBack database := by
  cases exprs with
  | nil =>
      intro expr member
      cases member
  | cons expr rest =>
      rw [List.forall_mem_cons]
      exact ⟨expr.readsBack windows, Expr.listReadsBack windows rest⟩
termination_by structural exprs

theorem Expr.orderReadsBack {database : Database} (windows : database.dialect.HasWindows)
    (items : List (OrderItem Expr)) :
    ∀ item ∈ items, item.expr.ReadsBack database := by
  cases items with
  | nil =>
      intro item member
      cases member
  | cons item rest =>
      cases item with
      | mk expr descending =>
          rw [List.forall_mem_cons]
          exact ⟨expr.readsBack windows, Expr.orderReadsBack windows rest⟩
termination_by structural items

theorem Expr.branchReadsBack {database : Database} (windows : database.dialect.HasWindows)
    (branches : List (Branch Expr)) :
    ∀ branch ∈ branches,
      branch.condition.ReadsBack database ∧ branch.result.ReadsBack database := by
  cases branches with
  | nil =>
      intro branch member
      cases member
  | cons branch rest =>
      cases branch with
      | mk condition result =>
          rw [List.forall_mem_cons]
          exact ⟨⟨condition.readsBack windows, result.readsBack windows⟩,
            Expr.branchReadsBack windows rest⟩
termination_by structural branches

theorem Expr.optionReadsBack {database : Database} (windows : database.dialect.HasWindows)
    (found : Option Expr) :
    ∀ expr ∈ found, expr.ReadsBack database := by
  cases found with
  | none =>
      intro expr member
      cases member
  | some expr =>
      intro _ member
      cases member
      exact expr.readsBack windows
termination_by structural found

end

/-! ## The round trip -/

open Lexeme in
/-- The characters of an expression's text are cut into its tokens, and its tokens are read as its
phrase, by the grammar and from left to right, and as nothing else. -/
structure Expr.RoundTrips (database : Database) (expr : Expr) : Prop where
  text : Piece.SameText database.dialect (allPieces database.dialect (expr.lexemes database))
    ((expr.glyphs database).flatMap Glyph.pieces)
  cut : Lexer.tokens? database.dialect (expr.glyphs database) = some (expr.tokens database)
  parses : Yields (fun fuel => Reader.parse .declared fuel .or (expr.tokens database))
    (expr.phrase database, [])
  reads : Reads database.dialect .declared .or (expr.tokens database) (expr.phrase database)
  unambiguous : ∀ phrase,
    Reads database.dialect .declared .or (expr.tokens database) phrase →
      phrase = expr.phrase database

/-- In every dialect with both clauses of windows, whatever can be written is read back. -/
theorem Expr.round_trips {database : Database} {expr : Expr}
    (windows : database.dialect.HasWindows)
    (renders : Lexeme.Writable database.dialect (expr.lexemes database)) :
    expr.RoundTrips database := by
  have reads : Reads database.dialect .declared .or (expr.tokens database)
      (expr.phrase database) := (expr.readsBack windows).loosest renders
  constructor
  case text => exact Lexeme.sameText_allGlyphs database.dialect (expr.lexemes database)
  case cut => exact Expr.tokens?_glyphs renders
  case parses =>
    have finds := reads.follows.stops .nil
    rwa [List.append_nil] at finds
  case reads => exact reads
  case unambiguous =>
    intro phrase other
    exact other.functional reads

namespace Sample

/-- A double negation, joined with an argument: two pairs of parentheses are needed, and no
operator stands between the operands. -/
def joined : Expr :=
  .like true
    (.binary .concat (.negate (.literal (.integer (-1)))) (.argument (.text "x")))
    (.binary .subtract (.literal (.integer 2)) (.binary .add (.literal (.integer 3))
      (.literal (.integer 4))))

def mysql : Database := ⟨.mysql, none⟩

theorem joined_round_trips :
    mysql.dialect.HasWindows ∧ Lexeme.Writable mysql.dialect (joined.lexemes mysql) ∧
      joined.RoundTrips mysql := by
  have windows : mysql.dialect.HasWindows := ⟨rfl, rfl⟩
  have renders : Lexeme.Writable mysql.dialect (joined.lexemes mysql) := by rfl
  exact ⟨windows, renders, Expr.round_trips windows renders⟩

end Sample

end SqlSelect
