import SqlSelect.Proofs.Closure.Part
import SqlSelect.Proofs.Grammar.Leveled

/-!
# What is written of an expression

A dialect leaves out the window lists that it has no clause for.  The draft of an expression
is what it writes around the expressions right within it, and where each of them stands.
Both the symbols of an expression and the frame of its phrase follow its draft, so that the
tokens of an expression are derived wherever its children are put in parentheses.
-/

namespace SqlSelect

/-! ## Windows as they are written -/

mutual

/-- The expression without the window lists that are left out. -/
def Expr.trimmed (clauses : WindowClauses) : Expr → Expr
  | .argument value => .argument value
  | .literal value => .literal value
  | .column reference => .column reference
  | .not operand => .not (operand.trimmed clauses)
  | .negate operand => .negate (operand.trimmed clauses)
  | .binary operator left right => .binary operator (left.trimmed clauses) (right.trimmed clauses)
  | .between negated operand low high =>
    .between negated (operand.trimmed clauses) (low.trimmed clauses) (high.trimmed clauses)
  | .like negated operand pattern =>
    .like negated (operand.trimmed clauses) (pattern.trimmed clauses)
  | .inList negated operand items =>
    .inList negated (operand.trimmed clauses) (Expr.listTrimmed clauses items)
  | .inQuery negated operand query => .inQuery negated (operand.trimmed clauses) query
  | .exists negated query => .exists negated query
  | .isNull negated operand => .isNull negated (operand.trimmed clauses)
  | .call function distinct arguments =>
    .call function distinct (Expr.listTrimmed clauses arguments)
  | .countAll => .countAll
  | .cast operand type => .cast (operand.trimmed clauses) type
  | .window function arguments partition order =>
    .window function (Expr.listTrimmed clauses arguments)
      (if clauses.partition then Expr.listTrimmed clauses partition else [])
      (if clauses.order then Expr.orderTrimmed clauses order else [])
  | .subquery query => .subquery query
  | .case branches otherwise =>
    .case (Expr.branchTrimmed clauses branches) (Expr.optionTrimmed clauses otherwise)

def Expr.listTrimmed (clauses : WindowClauses) : List Expr → List Expr
  | [] => []
  | expr :: rest => expr.trimmed clauses :: Expr.listTrimmed clauses rest

def Expr.orderTrimmed (clauses : WindowClauses) : List (OrderItem Expr) → List (OrderItem Expr)
  | [] => []
  | ⟨expr, descending⟩ :: rest =>
    ⟨expr.trimmed clauses, descending⟩ :: Expr.orderTrimmed clauses rest

def Expr.branchTrimmed (clauses : WindowClauses) : List (Branch Expr) → List (Branch Expr)
  | [] => []
  | ⟨condition, result⟩ :: rest =>
    ⟨condition.trimmed clauses, result.trimmed clauses⟩ :: Expr.branchTrimmed clauses rest

def Expr.optionTrimmed (clauses : WindowClauses) : Option Expr → Option Expr
  | none => none
  | some expr => some (expr.trimmed clauses)

end

namespace Expr

variable (database : Database)

/-- The phrase of an expression, as far as a dialect writes it. -/
def written (expr : Expr) : Phrase :=
  (expr.trimmed database.dialect.windowClauses).phrase database

def writtenOrder (item : OrderItem Expr) : OrderItem Phrase :=
  ⟨item.expr.written database, item.descending⟩

def writtenBranch (branch : Branch Expr) : Branch Phrase :=
  ⟨branch.condition.written database, branch.result.written database⟩

theorem written_list (exprs : List Expr) :
    listPhrases database (listTrimmed database.dialect.windowClauses exprs) =
      exprs.map (written database) := by
  induction exprs with
  | nil => rfl
  | cons expr rest ih => rw [listTrimmed, listPhrases, ih]; rfl

theorem written_order (items : List (OrderItem Expr)) :
    orderPhrases database (orderTrimmed database.dialect.windowClauses items) =
      items.map (writtenOrder database) := by
  induction items with
  | nil => rfl
  | cons item rest ih => rw [orderTrimmed, orderPhrases, ih]; rfl

theorem written_branches (branches : List (Branch Expr)) :
    branchPhrases database (branchTrimmed database.dialect.windowClauses branches) =
      branches.map (writtenBranch database) := by
  induction branches with
  | nil => rfl
  | cons branch rest ih => rw [branchTrimmed, branchPhrases, ih]; rfl

theorem written_option (expr : Option Expr) :
    optionPhrase database (optionTrimmed database.dialect.windowClauses expr) =
      expr.map (written database) := by
  cases expr <;> rfl

end Expr

/-! ## Drafts -/

/-- What is written of an expression, with the expressions right within it in their places. -/
abbrev Draft := List (Item Lexeme Expr)

namespace Draft

def enclosed (body : Draft) : Draft :=
  .symbol (.opening false) :: body ++ [.symbol (.closing false)]

/-- A clause of a window, left out where it is empty. -/
def clause (head : Lexeme) (items : List Draft) : Draft :=
  if items.isEmpty then [] else .symbol head :: Item.separated .comma items

end Draft

namespace Expr

/-- The draft of an entry of an ORDER BY list. -/
def orderDraft (item : OrderItem Expr) : Draft :=
  .part .anywhere item.expr :: if item.descending then [.symbol .descending] else []

/-- The draft of a branch of a CASE. -/
def branchDraft (branch : Branch Expr) : Draft :=
  [.symbol .when, .part .anywhere branch.condition, .symbol .thenResult,
    .part .anywhere branch.result]

/-- The draft behind the branches of a CASE. -/
def otherwiseDraft : Option Expr → Draft
  | none => []
  | some result => [.symbol .otherwise, .part .anywhere result]

/-- The draft of an expression. -/
def draft (database : Database) : Expr → Draft
  | .argument value => [.symbol (.argument value)]
  | .literal value => [.symbol (if value.hasLiteral then .literal value else .argument value)]
  | .column (.resolved resolved) => [.symbol (.column resolved)]
  | .column (.unresolved info _) => [.symbol (.fault (.unresolvedReference info []))]
  | .not operand => [.symbol .not, .part .negated operand]
  | .negate operand => [.symbol .minus, .part (.above .unary) operand]
  | .binary operator left right =>
    if operator = .concat ∧ database.dialect.concatOperator? = none then
      .symbol .concat ::
        Draft.enclosed [.part .anywhere left, .symbol .comma, .part .anywhere right]
    else
      [.part (.atLeast operator.precedence) left, .symbol (.operator operator),
        .part (.above operator.precedence) right]
  | .between negated operand low high =>
    [.part (.above .predicate) operand, .symbol (.between negated),
      .part (.atLeast .additive) low, .symbol (.operator .and), .part (.atLeast .additive) high]
  | .like negated operand pattern =>
    [.part (.above .predicate) operand, .symbol (.like negated), .part (.atLeast .additive) pattern]
  | .inList negated operand items =>
    .part (.above .predicate) operand :: .symbol (.isIn negated) ::
      Draft.enclosed (Item.listed .comma items)
  | .inQuery negated operand query =>
    [.part (.above .predicate) operand, .symbol (.isIn negated),
      .symbol (.query (query.lexemes database))]
  | .exists negated query => [.symbol (.exists negated), .symbol (.query (query.lexemes database))]
  | .isNull negated operand => [.part (.above .predicate) operand, .symbol (.isNull negated)]
  | .call function distinct arguments =>
    .symbol (.function function) :: Draft.enclosed
      ((if distinct then [.symbol .distinct] else []) ++ Item.listed .comma arguments)
  | .countAll => .symbol (.function .count) :: Draft.enclosed [.symbol .star]
  | .cast operand type =>
    .symbol .cast :: Draft.enclosed [.part .anywhere operand, .symbol (.asType type)]
  | .window function arguments partition order =>
    let partitioned := !partition.isEmpty && database.dialect.supportsPartition
    let ordered := !order.isEmpty && database.dialect.supportsWindowOrder
    if function = .rowNumber ∧ database.dialect.rowNumberNeedsOrder ∧ ordered = false then
      [.symbol (.fault (.unsupported database.dialect .unorderedRowNumber))]
    else
      .symbol (.function function) :: Draft.enclosed (Item.listed .comma arguments) ++
        .symbol .over :: Draft.enclosed (
          Draft.clause .partitionBy (if database.dialect.supportsPartition then
            partition.map fun item => [.part .anywhere item] else []) ++
          Draft.clause (.orderBy partitioned) (if database.dialect.supportsWindowOrder then
            order.map orderDraft else []))
  | .subquery query => [.symbol (.query (query.lexemes database))]
  | .case branches otherwise =>
    .symbol .case :: branches.flatMap branchDraft ++ otherwiseDraft otherwise ++ [.symbol .endCase]

end Expr

/-! ## The symbols of a draft -/

/-- What a place requires of the precedence of a child. -/
def Place.required : Place → Precedence
  | .anywhere => .or
  | .atLeast precedence | .above precedence => precedence
  | .negated => .unary

/-- A place requires more than its precedence. -/
def Place.strict : Place → Bool
  | .above _ => true
  | .anywhere | .atLeast _ | .negated => false

/-- A child stands in parentheses in its place. -/
def Place.groups (dialect : Dialect) (place : Place) (child : Expr) : Bool :=
  child.needsGroup dialect place.required place.strict

/-- The symbols of an item of a draft. -/
def Item.lexemes (database : Database) : Item Lexeme Expr → List Lexeme
  | .symbol lexeme => [lexeme]
  | .part place child =>
    Lexeme.grouped (place.groups database.dialect child) (child.lexemes database)

namespace Draft

variable {database : Database}

/-- The symbols of a draft. -/
def lexemes (database : Database) (draft : Draft) : List Lexeme :=
  draft.flatMap (Item.lexemes database)

@[simp] theorem lexemes_nil : lexemes database [] = [] := rfl

@[simp] theorem lexemes_symbol (lexeme : Lexeme) (rest : Draft) :
    lexemes database (.symbol lexeme :: rest) = lexeme :: lexemes database rest := rfl

@[simp] theorem lexemes_part (place : Place) (child : Expr) (rest : Draft) :
    lexemes database (.part place child :: rest) =
      child.placed database place.required place.strict (child.lexemes database) ++
        lexemes database rest := rfl

/-- Where everything fits there are no parentheses. -/
@[simp] theorem placed_loosest (child : Expr) (body : List Lexeme) :
    child.placed database .or false body = body := rfl

@[simp] theorem lexemes_append (left right : Draft) :
    lexemes database (left ++ right) = lexemes database left ++ lexemes database right :=
  List.flatMap_append

@[simp] theorem lexemes_enclosed (body : Draft) :
    lexemes database (enclosed body) = Lexeme.enclosed (lexemes database body) := by
  simp [enclosed, Lexeme.enclosed]

theorem lexemes_separated (items : List Draft) :
    lexemes database (Item.separated .comma items) =
      Lexeme.separated (items.map (lexemes database)) := by
  induction items with
  | nil => rfl
  | cons item rest ih =>
      cases rest with
      | nil => rfl
      | cons second others =>
          rw [Item.separated_cons_cons, lexemes_append, lexemes_symbol, ih]
          rfl

/-- A clause is written if it is supported and has any items. -/
theorem lexemes_clause (head : Lexeme) (supported : Bool) (items : List Draft) :
    lexemes database (clause head (if supported then items else [])) =
      if !items.isEmpty && supported then
        head :: Lexeme.separated (items.map (lexemes database)) else [] := by
  cases supported with
  | false => simp [clause]
  | true =>
      cases items with
      | nil => rfl
      | cons item rest =>
          rw [← lexemes_separated]
          rfl

theorem lexemes_parts (children : List Expr) :
    (children.map fun child => [Item.part .anywhere child]).map (lexemes database) =
      Expr.listLexemes database children := by
  induction children with
  | nil => rfl
  | cons child rest ih => simpa [Expr.listLexemes, Place.required, Place.strict] using ih

theorem lexemes_order (items : List (OrderItem Expr)) :
    (items.map Expr.orderDraft).map (lexemes database) = Expr.orderLexemes database items := by
  induction items with
  | nil => rfl
  | cons item rest ih =>
      obtain ⟨expr, descending⟩ := item
      rw [List.map_cons, List.map_cons, ih]
      cases descending <;> rfl

theorem lexemes_branches (branches : List (Branch Expr)) :
    lexemes database (branches.flatMap Expr.branchDraft) =
      Expr.branchLexemes database branches := by
  induction branches with
  | nil => rfl
  | cons branch rest ih =>
      simp [Expr.branchDraft, Expr.branchLexemes, ih, Place.required, Place.strict]

@[simp] theorem lexemes_listed (children : List Expr) :
    lexemes database (Item.listed .comma children) =
      Lexeme.separated (Expr.listLexemes database children) := by
  rw [Item.listed, lexemes_separated, lexemes_parts]

end Draft

/-- An expression is written as its draft. -/
theorem Expr.lexemes_eq_draft (database : Database) (expr : Expr) :
    expr.lexemes database = (expr.draft database).lexemes database := by
  cases expr with
  | column reference => cases reference <;> rfl
  | binary operator left right =>
      rw [lexemes, draft]
      split <;> simp [Place.required, Place.strict]
  | call function distinct arguments =>
      cases distinct <;> simp [lexemes, draft]
  | window function arguments partition order =>
      rw [lexemes, draft]
      split
      · rfl
      · simp only [Draft.lexemes_symbol, Draft.lexemes_append, Draft.lexemes_enclosed,
          Draft.lexemes_listed, Draft.lexemes_clause, Draft.lexemes_parts, Draft.lexemes_order,
          List.isEmpty_map, List.cons_append]
  | case branches otherwise =>
      cases otherwise <;>
        simp [lexemes, draft, Draft.lexemes_branches, otherwiseDraft, optionLexemes,
          Place.required, Place.strict]
  | _ => simp [lexemes, draft, Place.required, Place.strict]

/-! ## The frame of a draft -/

/-- What an item of a draft is in the frame of a phrase. -/
def Item.frame (database : Database) : Item Lexeme Expr → Frame
  | .symbol lexeme => Frame.symbols (Lexeme.tokens database.dialect [lexeme])
  | .part place child => [.part place (child.written database)]

namespace Draft

variable {database : Database}

/-- The frame of the phrase of a draft. -/
def frame (database : Database) (draft : Draft) : Frame :=
  draft.flatMap (Item.frame database)

@[simp] theorem frame_nil : frame database [] = [] := rfl

@[simp] theorem frame_symbol (lexeme : Lexeme) (rest : Draft) :
    frame database (.symbol lexeme :: rest) =
      Frame.symbols (Lexeme.tokens database.dialect [lexeme]) ++ frame database rest := rfl

@[simp] theorem frame_part (place : Place) (child : Expr) (rest : Draft) :
    frame database (.part place child :: rest) =
      .part place (child.written database) :: frame database rest := rfl

@[simp] theorem frame_append (left right : Draft) :
    frame database (left ++ right) = frame database left ++ frame database right :=
  List.flatMap_append

@[simp] theorem frame_enclosed (body : Draft) :
    frame database (enclosed body) = Frame.enclosed (frame database body) := by
  simp [enclosed, Frame.enclosed, Frame.symbols, Lexeme.cut]

theorem frame_separated (items : List Draft) :
    frame database (Item.separated .comma items) =
      Item.separated .comma (items.map (frame database)) := by
  induction items with
  | nil => rfl
  | cons item rest ih =>
      cases rest with
      | nil => rfl
      | cons second others =>
          rw [Item.separated_cons_cons, frame_append, frame_symbol, ih]
          rfl

theorem frame_parts (children : List Expr) :
    (children.map fun child => [Item.part .anywhere child]).map (frame database) =
      (children.map (Expr.written database)).map fun phrase => [.part .anywhere phrase] := by
  rw [List.map_map, List.map_map]
  rfl

@[simp] theorem frame_listed (children : List Expr) :
    frame database (Item.listed .comma children) =
      Item.listed .comma (children.map (Expr.written database)) := by
  rw [Item.listed, frame_separated, frame_parts]
  rfl

theorem frame_order (items : List (OrderItem Expr)) :
    (items.map Expr.orderDraft).map (frame database) =
      (items.map (Expr.writtenOrder database)).map Phrase.orderFrame := by
  rw [List.map_map, List.map_map]
  apply List.map_congr_left
  intro item _
  obtain ⟨expr, descending⟩ := item
  cases descending <;> rfl

theorem frame_branches (branches : List (Branch Expr)) :
    frame database (branches.flatMap Expr.branchDraft) =
      (branches.map (Expr.writtenBranch database)).flatMap Phrase.branchFrame := by
  induction branches with
  | nil => rfl
  | cons branch rest ih =>
      rw [List.flatMap_cons, frame_append, ih]
      rfl

theorem frame_clause {head : Lexeme} {keyword : Keyword} (items : List Draft)
    (words : head.cut database.dialect =
      [.keyword keyword, .keyword .by]) :
    frame database (clause head items) = Frame.clause keyword (items.map (frame database)) := by
  cases items with
  | nil => rfl
  | cons item rest =>
      have written : clause head (item :: rest) =
          .symbol head :: Item.separated .comma (item :: rest) := rfl
      rw [written, frame_symbol, Lexeme.tokens_cons, words, frame_separated]
      rfl

end Draft

/-- An expression that can be written has the frame of its draft, unless it is a negative
literal, whose phrase is a negation. -/
theorem Expr.frame_eq_draft {database : Database} {expr : Expr}
    (renders : Lexeme.Writable database.dialect (expr.lexemes database))
    (plain : ∀ value, expr = .literal value →
      (value.isNegative && value.hasLiteral) = false) :
    (expr.written database).frame database.dialect = (expr.draft database).frame database := by
  cases expr with
  | argument _ | not _ | negate _ | countAll | subquery _ => rfl
  | literal value =>
      have unsigned := plain value rfl
      simp only [written, trimmed, phrase, draft, Draft.frame_symbol, Dialect.literalPhrase]
      cases finite : value.hasLiteral with
      | false => rfl
      | true =>
          have positive : value.isNegative = false := by simpa [finite] using unsigned
          simp [positive, Phrase.frame, Frame.symbols, Lexeme.cut, Dialect.literalTokens]
  | column reference =>
      cases reference with
      | resolved column => rfl
      | unresolved _ _ => cases renders
  | binary operator left right =>
      rw [written, trimmed, phrase, Phrase.frame, draft]
      split <;> rfl
  | between negated operand low high => cases negated <;> rfl
  | like negated operand pattern => cases negated <;> rfl
  | inList negated operand items =>
      rw [written, trimmed, phrase, Phrase.frame, draft, written_list]
      cases negated <;> simp [written, Frame.symbols, Lexeme.cut, Token.negation]
  | inQuery negated operand query => cases negated <;> rfl
  | «exists» negated query => cases negated <;> rfl
  | isNull negated operand => cases negated <;> rfl
  | call function distinct arguments =>
      rw [written, trimmed, phrase, Phrase.frame, draft, written_list]
      cases distinct <;> simp [Frame.symbols, Lexeme.cut]
  | cast operand type => rfl
  | window function arguments partition order =>
      have partitionFrame : Draft.frame database (.clause .partitionBy
          (if database.dialect.supportsPartition then
            partition.map fun item => [.part .anywhere item] else [])) =
          Frame.clause .partition ((listPhrases database
            (if database.dialect.supportsPartition then
              listTrimmed database.dialect.windowClauses partition else [])).map
            fun phrase => [.part .anywhere phrase]) := by
        rw [Draft.frame_clause _ rfl]
        split
        · rw [Draft.frame_parts, written_list]
        · rfl
      have orderFrame (following : Bool) : Draft.frame database (.clause (.orderBy following)
          (if database.dialect.supportsWindowOrder then order.map orderDraft else [])) =
          Frame.clause .order ((orderPhrases database
            (if database.dialect.supportsWindowOrder then
              orderTrimmed database.dialect.windowClauses order else [])).map
            Phrase.orderFrame) := by
        rw [Draft.frame_clause _ (by cases following <;> rfl)]
        split
        · rw [Draft.frame_order, written_order]
        · rfl
      rw [lexemes] at renders
      split at renders
      · cases renders
      · rename_i numbered
        rw [written, trimmed, phrase, Phrase.frame, draft, if_neg numbered, written_list]
        simp [partitionFrame, orderFrame, Frame.symbols, Lexeme.cut,
          Dialect.windowClauses]
        rfl
  | case branches otherwise =>
      rw [written, trimmed, phrase, Phrase.frame, draft, written_branches, written_option]
      cases otherwise <;>
        simp [Draft.frame_branches, otherwiseDraft, Phrase.otherwiseFrame, Frame.symbols,
          Lexeme.cut]

end SqlSelect
