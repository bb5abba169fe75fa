import SqlSelect.Proofs.Prepared.Mention

/-!
# Writing agrees with the mentions

What is written for a query, and what the walk over its tree collects, are two
recursions that know nothing of each other.  Symbols are faithful to some mentions
if, provided that they can be written at all, they hand over the same arguments,
hold the same nested statements, and declare the same common tables.  Faithful
symbols may be put one behind another, so that the queries follow clause by clause.
-/

namespace SqlSelect

namespace Piece

@[simp] theorem arguments_append (left right : List Piece) :
    arguments (left ++ right) = arguments left ++ arguments right := by
  induction left with
  | nil => rfl
  | cons piece rest ih => cases piece <;> simp [arguments, ih]

theorem check_append (left right : List Piece) :
    check (left ++ right) = .ok () ↔ check left = .ok () ∧ check right = .ok () := by
  induction left with
  | nil => simp [check]
  | cons piece rest ih =>
      cases piece with
      | text _ => simpa [check] using ih
      | argument _ => simpa [check] using ih
      | fault _ => simp [check]

theorem spell_append (dialect : Dialect) (written : Nat) (left right : List Piece) :
    spell dialect written (left ++ right) =
      spell dialect written left ++ spell dialect (written + (arguments left).length) right := by
  induction left generalizing written with
  | nil => rfl
  | cons piece rest ih =>
      cases piece with
      | text _ => simp [spell, arguments, ih]
      | argument _ => simp [spell, arguments, ih, Nat.add_assoc, Nat.add_comm 1]
      | fault _ => simp [spell, arguments, ih]

/-- A text that passes the check has no part that cannot be written. -/
theorem not_fault_of_check {pieces : List Piece} (writable : check pieces = .ok ())
    (error : QueryError) : .fault error ∉ pieces := by
  intro member
  obtain ⟨before, after, rfl⟩ := List.append_of_mem member
  have failing := ((check_append before (.fault error :: after)).mp writable).2
  simp [check] at failing

end Piece

namespace Lexeme

theorem declareAll_append (dialect : Dialect) (declared : List CommonTable)
    (left right : List Lexeme) :
    declareAll dialect declared (left ++ right) =
      (declareAll dialect declared left).bind fun tables => declareAll dialect tables right := by
  induction left generalizing declared with
  | nil => rfl
  | cons lexeme rest ih =>
      cases first : lexeme.declare dialect declared with
      | error _ => simp [declareAll, first, bind, Except.bind]
      | ok tables => simpa [declareAll, first, bind, Except.bind] using ih tables

/-- The symbols have a text, without a part that cannot be written. -/
def Writable (dialect : Dialect) (lexemes : List Lexeme) : Prop :=
  Piece.check (allPieces dialect lexemes) = .ok ()

theorem writable_append {dialect : Dialect} {left right : List Lexeme} :
    Writable dialect (left ++ right) ↔ Writable dialect left ∧ Writable dialect right := by
  simp [Writable, Piece.check_append]

@[simp] theorem check_query (dialect : Dialect) (body : List Lexeme) :
    Piece.check ((Lexeme.query body).pieces dialect) = .ok () ↔ Writable dialect body := by
  simp [pieces, Piece.check, Piece.check_append, Writable]

mutual

/-- The aliases of the common tables that a symbol names. -/
def names : Lexeme → List Alias
  | .query body => allNames body
  | .common handle _ => [handle]
  | _ => []

/-- The aliases of the common tables that some symbols name, parentheses included. -/
def allNames : List Lexeme → List Alias
  | [] => []
  | lexeme :: rest => lexeme.names ++ allNames rest

end

@[simp] theorem allNames_append (left right : List Lexeme) :
    allNames (left ++ right) = allNames left ++ allNames right := by
  induction left with
  | nil => rfl
  | cons lexeme rest ih => simp [allNames, ih]

/-- Some symbols hand over the mentioned arguments, name the mentioned common tables,
and hold every mentioned statement right behind its opening. -/
structure Carries (database : Database) (lexemes : List Lexeme) (mentions : List Mention) :
    Prop where
  arguments :
    Piece.arguments (allPieces database.dialect lexemes) = Mention.arguments mentions
  names : allNames lexemes = Mention.names mentions
  statements : ∀ operator query, .statement operator query ∈ mentions →
    ∃ before after, allPieces database.dialect lexemes =
      before ++ .text (SetOperator.opening operator) ::
        (allPieces database.dialect (query.lexemes database) ++ after)

end Lexeme

namespace CommonQuery

/-- The common table as it is declared in a statement for `database`. -/
def table (database : Database) (common : CommonQuery) : CommonTable :=
  ⟨common.alias, (Lexeme.query (common.query.lexemes database)).pieces database.dialect⟩

/-- The query behind a common table can be written, and carries what it mentions. -/
structure Written (database : Database) (common : CommonQuery) : Prop where
  writable : Lexeme.Writable database.dialect (common.query.lexemes database)
  carries : Lexeme.Carries database (common.query.lexemes database)
    (common.query.mentions database.dialect.windowClauses)

@[simp] theorem any_table_same (database : Database) (declared : List CommonQuery)
    (handle : Alias) :
    (declared.map (table database)).any (·.alias.same handle) =
      declared.any (·.alias.same handle) := by
  simp [List.any_map, Function.comp_def, table]

end CommonQuery

namespace Lexeme

/-- Some symbols agree with some mentions: in what they carry, and in the common
tables that they declare. -/
structure Agrees (database : Database) (lexemes : List Lexeme) (mentions : List Mention) :
    Prop extends Carries database lexemes mentions where
  declares : ∀ (declared : List CommonQuery) (tables : List CommonTable),
    (∀ common ∈ declared, common.Written database) →
    declareAll database.dialect (declared.map (CommonQuery.table database)) lexemes =
      .ok tables →
    tables = (Mention.declareAll declared mentions).map (CommonQuery.table database) ∧
      ∀ common ∈ Mention.declareAll declared mentions, common.Written database

/-- Some symbols agree with some mentions, provided that they can be written. -/
def Faithful (database : Database) (lexemes : List Lexeme) (mentions : List Mention) : Prop :=
  Writable database.dialect lexemes → Agrees database lexemes mentions

/-- A symbol that is fixed text and names no common table. -/
def isFixed : Lexeme → Bool
  | .argument _ | .query _ | .common _ _ | .fault _ => false
  | _ => true

theorem exists_pieces_of_isFixed {lexeme : Lexeme} (fixed : lexeme.isFixed = true)
    (dialect : Dialect) : ∃ text, lexeme.pieces dialect = [.text text] := by
  cases lexeme <;> first | exact ⟨_, rfl⟩ | simp [isFixed] at fixed

theorem names_of_isFixed {lexeme : Lexeme} (fixed : lexeme.isFixed = true) :
    lexeme.names = [] := by
  cases lexeme <;> first | rfl | simp [isFixed] at fixed

theorem declare_of_isFixed {lexeme : Lexeme} (fixed : lexeme.isFixed = true)
    (dialect : Dialect) (declared : List CommonTable) :
    lexeme.declare dialect declared = .ok declared := by
  cases lexeme <;> first | rfl | simp [isFixed] at fixed

namespace Faithful

variable {database : Database} {lexemes left right : List Lexeme}
variable {mentions leftMentions rightMentions : List Mention}

theorem nil : Faithful database [] [] := by
  intro _
  constructor
  · exact ⟨rfl, rfl, by simp⟩
  · intro declared tables written declares
    cases declares
    exact ⟨rfl, written⟩

/-- A part that cannot be written agrees with whatever is mentioned. -/
theorem fault (error : QueryError) : Faithful database (.fault error :: lexemes) mentions := by
  intro writable
  cases writable

theorem append (first : Faithful database left leftMentions)
    (second : Faithful database right rightMentions) :
    Faithful database (left ++ right) (leftMentions ++ rightMentions) := by
  intro writable
  obtain ⟨leftWritable, rightWritable⟩ := writable_append.mp writable
  have leftAgrees := first leftWritable
  have rightAgrees := second rightWritable
  refine ⟨⟨?_, ?_, ?_⟩, ?_⟩
  · simp [leftAgrees.arguments, rightAgrees.arguments]
  · simp [leftAgrees.names, rightAgrees.names]
  · intro operator query member
    rcases List.mem_append.mp member with member | member
    · obtain ⟨before, after, text⟩ := leftAgrees.statements operator query member
      exact ⟨before, after ++ allPieces database.dialect right, by simp [text]⟩
    · obtain ⟨before, after, text⟩ := rightAgrees.statements operator query member
      exact ⟨allPieces database.dialect left ++ before, after, by simp [text]⟩
  · intro declared tables written declares
    rw [declareAll_append] at declares
    cases leftDeclares : declareAll database.dialect
        (declared.map (CommonQuery.table database)) left with
    | error _ =>
        rw [leftDeclares] at declares
        cases declares
    | ok middle =>
        rw [leftDeclares] at declares
        obtain ⟨rfl, leftWritten⟩ := leftAgrees.declares declared middle written leftDeclares
        rw [Mention.declareAll_append]
        exact rightAgrees.declares _ tables leftWritten declares

theorem fixed {lexeme : Lexeme} (isFixed : lexeme.isFixed = true) :
    Faithful database [lexeme] [] := by
  intro _
  obtain ⟨text, pieces⟩ := exists_pieces_of_isFixed isFixed database.dialect
  refine ⟨⟨?_, ?_, by simp⟩, ?_⟩
  · simp [pieces, Piece.arguments, Mention.arguments]
  · simp [allNames, names_of_isFixed isFixed, Mention.names]
  · intro declared tables written declares
    rw [declareAll, declare_of_isFixed isFixed] at declares
    cases declares
    exact ⟨rfl, written⟩

theorem fixed_cons {lexeme : Lexeme} (isFixed : lexeme.isFixed = true)
    (rest : Faithful database lexemes mentions) :
    Faithful database (lexeme :: lexemes) mentions :=
  (fixed isFixed).append rest

theorem word_cons (text : String) (rest : Faithful database lexemes mentions) :
    Faithful database (.word text :: lexemes) mentions :=
  fixed_cons rfl rest

theorem append_silent (first : Faithful database left mentions)
    (second : Faithful database right []) : Faithful database (left ++ right) mentions := by
  simpa using first.append second

theorem argument (value : Value) :
    Faithful database [.argument value] [.argument value] := by
  intro _
  refine ⟨⟨rfl, rfl, by simp⟩, ?_⟩
  intro declared tables written declares
  cases declares
  exact ⟨rfl, written⟩

/-- A query in parentheses. -/
theorem query (inner : Query)
    (body : Faithful database (inner.lexemes database) mentions) :
    Faithful database [.query (inner.lexemes database)] (.statement none inner :: mentions) := by
  intro writable
  simp only [Writable, allPieces_cons, allPieces_nil, List.append_nil, check_query] at writable
  have agrees := body writable
  refine ⟨⟨?_, ?_, ?_⟩, ?_⟩
  · simp [pieces, Piece.arguments, Mention.arguments, agrees.arguments]
  · simp [allNames, names, Mention.names, agrees.names]
  · intro operator nested member
    rcases List.mem_cons.mp member with same | member
    · cases same
      exact ⟨[], [.text ")"], by simp [pieces, SetOperator.opening]⟩
    · obtain ⟨before, after, text⟩ := agrees.statements operator nested member
      exact ⟨.text "(" :: before, after ++ [.text ")"], by simp [pieces, text]⟩
  · intro declared tables written declares
    rw [declareAll, declare] at declares
    cases bodyDeclares : declareAll database.dialect
        (declared.map (CommonQuery.table database)) (inner.lexemes database) with
    | error _ =>
        rw [bodyDeclares] at declares
        cases declares
    | ok middle =>
        rw [bodyDeclares] at declares
        cases declares
        exact agrees.declares declared _ written bodyDeclares

/-- A query behind the operator that combines it with those before it. -/
theorem operand (operator : SetOperator) (inner : Query)
    (body : Faithful database (inner.lexemes database) mentions) :
    Faithful database (.word operator.keyword :: inner.lexemes database)
      (.statement (some operator) inner :: mentions) := by
  intro writable
  have agrees := body.word_cons operator.keyword writable
  refine ⟨⟨agrees.arguments, agrees.names, ?_⟩, agrees.declares⟩
  intro nestedOperator nested member
  rcases List.mem_cons.mp member with same | member
  · cases same
    exact ⟨[], [], by simp [pieces, SetOperator.opening]⟩
  · exact agrees.statements nestedOperator nested member

/-- The name of a common table, whose query is held back. -/
theorem common (handle : Alias) (inner : Query)
    (body : Faithful database (inner.lexemes database)
      (inner.mentions database.dialect.windowClauses)) :
    Faithful database [.common handle fun _ => .query (inner.lexemes database)]
      [.common handle inner (inner.mentions database.dialect.windowClauses)] := by
  intro _
  refine ⟨⟨rfl, rfl, by simp⟩, ?_⟩
  intro declared tables written declares
  simp only [declareAll, declare, CommonQuery.any_table_same] at declares
  simp only [Mention.declareAll, Mention.declare]
  by_cases known : declared.any (·.alias.same handle) = true
  · simp only [known, if_true] at declares ⊢
    cases declares
    exact ⟨rfl, written⟩
  · simp only [known, if_false, Bool.false_eq_true, except_bind_ok, except_pure_ok,
      Except.ok.injEq, exists_eq_right] at declares ⊢
    rcases declares with ⟨_, checked, middle, used, rfl⟩
    have writable := (check_query _ _).mp checked
    have agrees := body writable
    rcases agrees.declares declared middle written used with ⟨rfl, allWritten⟩
    refine ⟨by simp [CommonQuery.table], ?_⟩
    intro common member
    rcases List.mem_append.mp member with member | member
    · exact allWritten common member
    · cases List.mem_singleton.mp member
      exact ⟨writable, agrees.toCarries⟩

/-! ### Groups, lists and clauses -/

theorem enclosed (body : Faithful database lexemes mentions) :
    Faithful database (Lexeme.enclosed lexemes) mentions := by
  exact fixed_cons rfl (body.append_silent (fixed rfl))

theorem placed (required : Precedence) (strict : Bool) (child : Expr)
    (body : Faithful database lexemes mentions) :
    Faithful database (child.placed database required strict lexemes) mentions := by
  simp only [Expr.placed, grouped]
  split
  · exact fixed_cons rfl (body.append_silent (fixed rfl))
  · exact body

/-- One more item ahead of a list with commas. -/
theorem separated_cons {items : List (List Lexeme)}
    (item : Faithful database lexemes leftMentions)
    (rest : Faithful database (separated items) rightMentions) :
    Faithful database (separated (lexemes :: items)) (leftMentions ++ rightMentions) := by
  cases items with
  | nil => simpa [separated] using item.append rest
  | cons second others => exact item.append (fixed_cons rfl rest)

theorem clause (keyword : String) {items : List (List Lexeme)}
    (list : Faithful database (separated items) mentions) :
    Faithful database (Query.clause keyword items) mentions := by
  cases items with
  | nil => exact list
  | cons item rest => exact fixed_cons rfl list

/-- A condition behind its keyword is faithful if its symbols, where there are any, are. -/
theorem condition (keyword : String) {body : Option (List Lexeme)}
    (content : Faithful database (body.getD []) mentions) :
    Faithful database (Query.condition keyword body) mentions := by
  cases body with
  | none => exact content
  | some body => exact fixed_cons rfl content

/-- A clause inside a window, left out where it is empty or the dialect has none. -/
theorem windowClause {keyword : Lexeme} (isFixed : keyword.isFixed = true) {empty : Bool}
    (kept : Bool) (content : Faithful database lexemes mentions)
    (silent : empty = true → mentions = []) :
    Faithful database (if !empty && kept then keyword :: lexemes else [])
      (if kept then mentions else []) := by
  cases kept with
  | false => simpa using nil
  | true =>
      cases empty with
      | false => exact fixed_cons isFixed content
      | true => simpa [silent rfl] using nil

theorem label (projection : Projection) (position : Nat) :
    Faithful database (projection.labelLexemes position) [] := by
  unfold Projection.labelLexemes
  split
  · exact fixed_cons rfl (fixed rfl)
  · exact nil

theorem name (handle : Alias) : Faithful database (Source.nameLexemes database handle) [] := by
  unfold Source.nameLexemes
  split
  · exact fixed_cons rfl (fixed rfl)
  · exact nil

theorem everyColumn (aliases : List Alias) :
    Faithful database (Query.everyColumn aliases) [] := by
  unfold Query.everyColumn
  induction aliases with
  | nil => exact nil
  | cons handle rest ih => exact separated_cons (fixed_cons rfl (fixed rfl)) ih

theorem pagination (fetchFirst offset : Option Nat) (ordered : Bool) :
    Faithful database (Query.paginationLexemes database fetchFirst offset ordered) [] := by
  unfold Query.paginationLexemes
  split
  · exact fixed rfl
  · exact nil

theorem locking (isolation : Option IsolationLevel) (lock : Option LockLevel) :
    Faithful database (Query.lockingLexemes database isolation lock) [] := by
  unfold Query.lockingLexemes
  split
  · split
    · exact fixed rfl
    · exact fault _
  · split
    · exact fixed rfl
    · exact nil
  · exact nil

end Faithful

end Lexeme

open Lexeme in
mutual

theorem Expr.faithful (database : Database) (expr : Expr) :
    Faithful database (expr.lexemes database)
      (expr.mentions database.dialect.windowClauses) := by
  cases expr with
  | argument value => exact .argument value
  | literal value =>
      simp only [Expr.lexemes, Expr.mentions]
      by_cases literal : value.hasLiteral = true
      · simpa [literal] using Faithful.fixed rfl
      · simpa [literal] using Faithful.argument value
  | column reference =>
      cases reference with
      | resolved _ => exact .fixed rfl
      | unresolved _ _ => exact .fault _
  | not operand => exact .fixed_cons rfl (.placed .unary false operand (operand.faithful database))
  | negate operand =>
      exact .fixed_cons rfl (.placed .unary true operand (operand.faithful database))
  | binary operator left right =>
      have leftFaithful := left.faithful database
      have rightFaithful := right.faithful database
      simp only [Expr.lexemes]
      split
      · exact .fixed_cons rfl (.enclosed (leftFaithful.append (.fixed_cons rfl rightFaithful)))
      · exact (leftFaithful.placed _ _ _).append (.fixed_cons rfl (rightFaithful.placed _ _ _))
  | between negated operand low high =>
      have operandFaithful := (operand.faithful database).placed .predicate true operand
      have lowFaithful := (low.faithful database).placed .additive false low
      have highFaithful := (high.faithful database).placed .additive false high
      exact (operandFaithful.append (.fixed_cons rfl lowFaithful)).append
        (.fixed_cons rfl highFaithful)
  | like negated operand pattern =>
      have operandFaithful := (operand.faithful database).placed .predicate true operand
      have patternFaithful := (pattern.faithful database).placed .additive false pattern
      exact operandFaithful.append (.fixed_cons rfl patternFaithful)
  | inList negated operand items =>
      have operandFaithful := (operand.faithful database).placed .predicate true operand
      exact operandFaithful.append (.fixed_cons rfl (.enclosed (Expr.listFaithful database items)))
  | inQuery negated operand query =>
      have operandFaithful := (operand.faithful database).placed .predicate true operand
      exact operandFaithful.append (.fixed_cons rfl (.query query (query.faithful database)))
  | «exists» negated query => exact .fixed_cons rfl (.query query (query.faithful database))
  | isNull negated operand =>
      have operandFaithful := (operand.faithful database).placed .predicate true operand
      exact operandFaithful.append_silent (.fixed rfl)
  | call function distinct arguments =>
      have argumentsFaithful := Expr.listFaithful database arguments
      refine .fixed_cons rfl (.enclosed ?_)
      cases distinct with
      | false => exact argumentsFaithful
      | true => exact .fixed_cons rfl argumentsFaithful
  | countAll => exact .fixed_cons rfl (.enclosed (.fixed rfl))
  | cast operand type =>
      have operandFaithful := operand.faithful database
      exact .fixed_cons rfl (.enclosed (operandFaithful.append_silent (.fixed rfl)))
  | window function arguments partition order =>
      have argumentsFaithful := Expr.listFaithful database arguments
      have partitionFaithful := Expr.listFaithful database partition
      have orderFaithful := Expr.orderFaithful database order
      simp only [Expr.lexemes]
      split
      · exact .fault _
      · refine .append (.fixed_cons rfl (.enclosed argumentsFaithful))
          (.fixed_cons rfl (.enclosed (.append ?_ ?_)))
        · apply Faithful.windowClause rfl _ partitionFaithful
          intro empty
          rw [List.isEmpty_iff.mp empty, Expr.listMentions]
        · apply Faithful.windowClause rfl _ orderFaithful
          intro empty
          rw [List.isEmpty_iff.mp empty, Expr.orderMentions]
  | subquery query => exact .query query (query.faithful database)
  | case branches otherwise =>
      have branchesFaithful := Expr.branchFaithful database branches
      have otherwiseFaithful := Expr.optionFaithful database otherwise
      refine .append_silent (.append (.fixed_cons rfl branchesFaithful) ?_) (.fixed rfl)
      cases otherwise with
      | none => exact otherwiseFaithful
      | some _ => exact .fixed_cons rfl otherwiseFaithful

theorem Expr.listFaithful (database : Database) (exprs : List Expr) :
    Faithful database (separated (Expr.listLexemes database exprs))
      (Expr.listMentions database.dialect.windowClauses exprs) := by
  cases exprs with
  | nil => exact .nil
  | cons expr rest =>
      exact .separated_cons (expr.faithful database) (Expr.listFaithful database rest)

theorem Expr.orderFaithful (database : Database) (items : List (OrderItem Expr)) :
    Faithful database (separated (Expr.orderLexemes database items))
      (Expr.orderMentions database.dialect.windowClauses items) := by
  cases items with
  | nil => exact .nil
  | cons item rest =>
      cases item with
      | mk expr descending =>
          have exprFaithful := expr.faithful database
          refine .separated_cons ?_ (Expr.orderFaithful database rest)
          cases descending with
          | false => simpa using exprFaithful
          | true => exact exprFaithful.append_silent (.fixed rfl)

theorem Expr.branchFaithful (database : Database) (branches : List (Branch Expr)) :
    Faithful database (Expr.branchLexemes database branches)
      (Expr.branchMentions database.dialect.windowClauses branches) := by
  cases branches with
  | nil => exact .nil
  | cons branch rest =>
      cases branch with
      | mk condition result =>
          have conditionFaithful := condition.faithful database
          have resultFaithful := result.faithful database
          exact .append (.append (.fixed_cons rfl conditionFaithful)
            (.fixed_cons rfl resultFaithful)) (Expr.branchFaithful database rest)

theorem Expr.optionFaithful (database : Database) (expr : Option Expr) :
    Faithful database ((Expr.optionLexemes database expr).getD [])
      (Expr.optionMentions database.dialect.windowClauses expr) := by
  cases expr with
  | none => exact .nil
  | some expr => exact expr.faithful database

theorem Source.faithful (database : Database) (source : Source) :
    Faithful database (source.lexemes database)
      (source.mentions database.dialect.windowClauses) := by
  cases source with
  | mk handle relation =>
      cases relation with
      | table => exact .fixed_cons rfl (.name handle)
      | temporary =>
          simp only [Source.lexemes]
          split
          · exact .fixed_cons rfl (.name handle)
          · exact .fault _
      | derived query =>
          exact .append_silent (.query query (query.faithful database)) (.name handle)
      | common query => exact .common handle query (query.faithful database)

theorem Query.joinFaithful (database : Database) (joins : List Join) :
    Faithful database (Query.joinLexemes database joins)
      (Query.joinMentions database.dialect.windowClauses joins) := by
  cases joins with
  | nil => exact .nil
  | cons join rest =>
      cases join with
      | mk kind source on =>
          have sourceFaithful := source.faithful database
          have onFaithful := (Expr.optionFaithful database on).condition " on "
          exact .append (.append (.fixed_cons rfl sourceFaithful) onFaithful)
            (Query.joinFaithful database rest)

theorem Query.projectionFaithful (database : Database) (position : Nat)
    (projections : List Projection) :
    Faithful database (separated (Query.projectionLexemes database position projections))
      (Query.projectionMentions database.dialect.windowClauses projections) := by
  cases projections with
  | nil => exact .nil
  | cons projection rest =>
      cases projection with
      | mk expr label =>
          have exprFaithful := expr.faithful database
          exact .separated_cons (exprFaithful.append_silent (.label _ position))
            (Query.projectionFaithful database (position + 1) rest)

theorem Query.operandFaithful (database : Database) (operands : List Operand) :
    Faithful database (Query.operandLexemes database operands)
      (Query.operandMentions database.dialect.windowClauses operands) := by
  cases operands with
  | nil => exact .nil
  | cons operand rest =>
      cases operand with
      | mk operator query =>
          exact (Faithful.operand operator query (query.faithful database)).append
            (Query.operandFaithful database rest)

/-- A query is written with what it mentions. -/
theorem Query.faithful (database : Database) (query : Query) :
    Faithful database (query.lexemes database)
      (query.mentions database.dialect.windowClauses) := by
  cases query with
  | mk distinct projection source joins filter groupBy having operands orderBy fetchFirst
      offset isolation lock =>
      have selected : Faithful database
          (if projection.isEmpty then
            Query.everyColumn (source.alias :: joins.map (·.source.alias))
          else separated (Query.projectionLexemes database 1 projection))
          (Query.projectionMentions database.dialect.windowClauses projection) := by
        cases projection with
        | nil => exact .everyColumn _
        | cons first rest => exact Query.projectionFaithful database 1 (first :: rest)
      have opened := selected.word_cons (if distinct then "select distinct " else "select ")
      have sourced := opened.append ((source.faithful database).word_cons " from ")
      have joined := sourced.append (Query.joinFaithful database joins)
      have filtered := joined.append ((Expr.optionFaithful database filter).condition " where ")
      have grouped := filtered.append ((Expr.listFaithful database groupBy).clause " group by ")
      have restricted := grouped.append
        ((Expr.optionFaithful database having).condition " having ")
      have combined := restricted.append (Query.operandFaithful database operands)
      have ordered := combined.append ((Expr.orderFaithful database orderBy).clause " order by ")
      exact (ordered.append_silent (.pagination fetchFirst offset _)).append_silent
        (.locking isolation lock)

end

end SqlSelect
