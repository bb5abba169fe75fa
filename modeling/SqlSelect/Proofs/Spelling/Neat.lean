import SqlSelect.Proofs.Spelling.Name

/-!
# Statements are written neatly

Whatever query is written, a literal is followed by a gap, a minus sign by an operand
without a sign, the name of a function by a parenthesis, and every word is made of names in use
and of harmless text.  Neat rows may be put one behind another where the second begins with a
gap, so that the queries follow clause by clause.
-/

namespace SqlSelect

namespace Lexeme

/-- The texts of a symbol that the symbol alone does not fix. -/
def texts : Lexeme → List String
  | .word text => [text]
  | .column resolved => [resolved.text]
  | .common handle _ => [handle.displayName]
  | _ => []

/-- The symbols of a row are spaced, and their words are composed of some names. -/
structure Neat (names : List String) (lexemes : List Lexeme) : Prop extends Spaced lexemes where
  composed : ∀ lexeme ∈ flatten lexemes, ∀ text ∈ lexeme.texts, Composed names text

/-- A symbol that anything may stand behind, with no text but its own. -/
def isMark (lexeme : Lexeme) : Bool :=
  lexeme.demand = .nothing && !(lexeme matches .word _ | .column _ | .query _ | .common _ _)

theorem demand_of_isMark {lexeme : Lexeme} (mark : lexeme.isMark = true) :
    lexeme.demand = .nothing :=
  of_decide_eq_true (Bool.and_eq_true_iff.mp mark).1

theorem flat_of_isMark {lexeme : Lexeme} (mark : lexeme.isMark = true) :
    lexeme.flat = [lexeme] := by
  cases lexeme with
  | query _ => cases mark
  | _ => rfl

theorem texts_of_isMark {lexeme : Lexeme} (mark : lexeme.isMark = true) : lexeme.texts = [] := by
  cases lexeme with
  | word _ | column _ | common _ _ => cases mark
  | _ => rfl

theorem opens_nil : Opens [] := by
  intro first member
  cases member

theorem opens_cons {lexeme : Lexeme} (flat : lexeme.flat = [lexeme])
    (gap : lexeme.opensGap = true) (rest : List Lexeme) : Opens (lexeme :: rest) := by
  intro first member
  rw [flatten_cons_of_flat flat, List.head?_cons, Option.mem_some_iff] at member
  exact member ▸ gap

namespace Neat

variable {names leftNames rightNames more : List String}
variable {lexemes left right : List Lexeme}

theorem nil : Neat names [] := ⟨.nil, by simp⟩

theorem mono (neat : Neat names lexemes) (within : names ⊆ more) : Neat more lexemes :=
  ⟨neat.toSpaced, fun lexeme member text known =>
    (neat.composed lexeme member text known).mono within⟩

theorem append (first : Neat leftNames left) (second : Neat rightNames right)
    (opens : Opens right) : Neat (leftNames ++ rightNames) (left ++ right) := by
  refine ⟨first.toSpaced.append second.toSpaced opens, ?_⟩
  intro lexeme member text known
  rw [flatten_append, List.mem_append] at member
  rcases member with member | member
  · exact (first.composed lexeme member text known).mono (List.subset_append_left _ _)
  · exact (second.composed lexeme member text known).mono (List.subset_append_right _ _)

theorem append_silent (first : Neat names left) (second : Neat [] right) (opens : Opens right) :
    Neat names (left ++ right) := by
  simpa using first.append second opens

theorem cons {lexeme : Lexeme} (flat : lexeme.flat = [lexeme])
    (free : lexeme.demand = .nothing) (composed : ∀ text ∈ lexeme.texts, Composed names text)
    (rest : Neat names lexemes) : Neat names (lexeme :: lexemes) := by
  refine ⟨.cons flat free rest.toSpaced, ?_⟩
  intro other member text known
  rw [flatten_cons_of_flat flat, List.mem_cons] at member
  rcases member with rfl | member
  · exact composed text known
  · exact rest.composed other member text known

theorem fixed_cons {lexeme : Lexeme} (mark : lexeme.isMark = true) (rest : Neat names lexemes) :
    Neat names (lexeme :: lexemes) := by
  refine .cons (flat_of_isMark mark) (demand_of_isMark mark) ?_ rest
  intro text known
  rw [texts_of_isMark mark] at known
  cases known

/-- A symbol with no text but its own that the row may end with. -/
theorem last {lexeme : Lexeme} (flat : lexeme.flat = [lexeme]) (ends : lexeme.mayEnd = true)
    (silent : lexeme.texts = []) : Neat names [lexeme] := by
  refine ⟨.singleton flat ends, ?_⟩
  intro other member text known
  rw [flatten_cons_of_flat flat] at member
  rw [List.mem_singleton.mp member, silent] at known
  cases known

/-- A symbol with no text but its own, ahead of a row that begins with what it asks for. -/
theorem asking_cons {first lexeme : Lexeme} (flat : lexeme.flat = [lexeme])
    (silent : lexeme.texts = []) (begins : first ∈ (flatten lexemes).head?)
    (follows : Follows lexeme first) (rest : Neat names lexemes) :
    Neat names (lexeme :: lexemes) := by
  refine ⟨.cons_of_head flat begins follows rest.toSpaced, ?_⟩
  intro other member text known
  rw [flatten_cons_of_flat flat, List.mem_cons] at member
  rcases member with rfl | member
  · rw [silent] at known
    cases known
  · exact rest.composed other member text known

theorem word_cons {text : String} (composed : Composed names text) (rest : Neat names lexemes) :
    Neat names (.word text :: lexemes) := by
  refine .cons rfl rfl ?_ rest
  intro other known
  rw [List.mem_singleton.mp known]
  exact composed

theorem fixed_word_cons (text : String) (harmless : Harmless text) (rest : Neat names lexemes) :
    Neat names (.word text :: lexemes) :=
  word_cons (.fixed harmless) rest

theorem column (resolved : ResolvedColumn) :
    Neat [resolved.alias.displayName, resolved.column.name] [.column resolved] := by
  refine .cons rfl rfl ?_ nil
  intro text known
  rw [List.mem_singleton.mp known]
  exact .append (.append (.name List.mem_cons_self) (.fixed (by decide)))
    (.name (List.mem_cons_of_mem _ List.mem_cons_self))

/-! ### Groups, lists and clauses -/

theorem enclosed (body : Neat names lexemes) : Neat names (Lexeme.enclosed lexemes) :=
  fixed_cons rfl (body.append_silent (last rfl rfl rfl) (opens_cons rfl rfl []))

/-- The name of a function, with its arguments. -/
theorem call {lexeme : Lexeme} (flat : lexeme.flat = [lexeme]) (silent : lexeme.texts = [])
    (calls : lexeme.demand = .parenthesis) (body : Neat names lexemes) :
    Neat names (lexeme :: Lexeme.enclosed lexemes) := by
  have begins : Lexeme.opening false ∈ (flatten (Lexeme.enclosed lexemes)).head? := rfl
  exact asking_cons flat silent begins (by rw [Follows, calls]; rfl) body.enclosed

/-- A query in parentheses. -/
theorem query (body : Neat names lexemes) : Neat names [.query lexemes] := by
  have same : flatten [.query lexemes] = flatten (Lexeme.enclosed lexemes) := by
    simp [Lexeme.enclosed, flat]
  have enclosed := body.enclosed
  exact ⟨⟨same ▸ enclosed.chain, same ▸ enclosed.complete⟩, same ▸ enclosed.composed⟩

theorem placed (database : Database) (required : Precedence) (strict : Bool) (child : Expr)
    (body : Neat names lexemes) : Neat names (child.placed database required strict lexemes) := by
  simp only [Expr.placed, grouped]
  split
  · exact fixed_cons rfl (body.append_silent (last rfl rfl rfl) (opens_cons rfl rfl []))
  · exact body

/-- One more item ahead of a list with commas. -/
theorem separated_cons {items : List (List Lexeme)} (item : Neat leftNames lexemes)
    (rest : Neat rightNames (separated items)) :
    Neat (leftNames ++ rightNames) (separated (lexemes :: items)) := by
  cases items with
  | nil => exact item.mono (List.subset_append_left _ _)
  | cons second others => exact item.append (fixed_cons rfl rest) (opens_cons rfl rfl _)

theorem clause (keyword : String) (harmless : Harmless keyword) {items : List (List Lexeme)}
    (list : Neat names (separated items)) : Neat names (Query.clause keyword items) := by
  cases items with
  | nil => exact list
  | cons item rest => exact fixed_word_cons keyword harmless list

theorem condition (keyword : String) (harmless : Harmless keyword)
    {body : Option (List Lexeme)} (content : Neat names (body.getD [])) :
    Neat names (Query.condition keyword body) := by
  cases body with
  | none => exact content
  | some body => exact fixed_word_cons keyword harmless content

/-- A clause inside a window, left out where it is empty or the dialect has none. -/
theorem windowClause (keyword : Lexeme) (mark : keyword.isMark = true) (empty kept : Bool)
    (content : Neat names lexemes) :
    Neat (if kept then names else []) (if !empty && kept then keyword :: lexemes else []) := by
  cases kept with
  | false => simpa using nil
  | true =>
      cases empty with
      | false => exact fixed_cons mark content
      | true => exact nil

theorem label (projection : Projection) (position : Nat) :
    Neat projection.label.toList (projection.labelLexemes position) := by
  have known : ∀ label ∈ projection.label <|> projection.expr.defaultLabel position,
      Composed projection.label.toList label := by
    intro label member
    cases given : projection.label with
    | some own =>
        rw [given] at member
        exact .name (by simpa using member.symm)
    | none =>
        rw [given] at member
        have default : projection.expr.defaultLabel position = some label := member
        unfold Expr.defaultLabel at default
        split at default
        · cases default
        · cases default
          exact .append (.fixed (by decide)) (.number position)
  unfold Projection.labelLexemes
  split
  · rename_i label given
    exact word_cons (.fixed (by decide)) (word_cons (known label given) nil)
  · exact nil

theorem everyColumn (aliases : List Alias) :
    Neat (aliases.map Alias.displayName) (Query.everyColumn aliases) := by
  unfold Query.everyColumn
  induction aliases with
  | nil => exact nil
  | cons handle rest ih =>
      have named : Neat [handle.displayName] [.word handle.displayName, .word ".*"] :=
        word_cons (.name List.mem_cons_self) (fixed_word_cons ".*" (by decide) nil)
      exact separated_cons named ih

theorem name (database : Database) (handle : Alias) :
    Neat [handle.displayName] (Source.nameLexemes database handle) := by
  unfold Source.nameLexemes
  split
  · rename_i given
    have separator : Harmless database.dialect.aliasSeparator := by
      cases database.dialect <;> decide
    refine word_cons (.fixed separator) (word_cons (.name ?_) nil)
    simp [Alias.displayName, given]
  · exact nil

theorem pagination (database : Database) (fetchFirst offset : Option Nat) (ordered : Bool) :
    Neat [] (Query.paginationLexemes database fetchFirst offset ordered) := by
  unfold Query.paginationLexemes
  split
  · rename_i asked
    exact word_cons (database.dialect.trailing_pagination ordered asked).composed nil
  · exact nil

theorem locking (database : Database) (isolation : Option IsolationLevel)
    (lock : Option LockLevel) : Neat [] (Query.lockingLexemes database isolation lock) := by
  unfold Query.lockingLexemes
  split
  · split
    · rename_i suffix given
      exact word_cons (Dialect.trailing_locks given).composed nil
    · exact last rfl rfl rfl
  · split
    · rename_i suffix given
      exact word_cons (Dialect.trailing_isolation given).composed nil
    · exact nil
  · exact nil

end Neat

/-! ### Gaps ahead of clauses -/

theorem opens_word {text : String} (blank : text.toList.head? = some ' ')
    (rest : List Lexeme) : Opens (.word text :: rest) :=
  opens_cons rfl (by simp [opensGap, blank]) rest

theorem opens_clause {keyword : String} (blank : keyword.toList.head? = some ' ')
    (items : List (List Lexeme)) : Opens (Query.clause keyword items) := by
  unfold Query.clause
  split
  · exact opens_nil
  · exact opens_word blank _

theorem opens_pagination (database : Database) (fetchFirst offset : Option Nat)
    (ordered : Bool) : Opens (Query.paginationLexemes database fetchFirst offset ordered) := by
  unfold Query.paginationLexemes
  split
  · rename_i asked
    exact opens_word (database.dialect.trailing_pagination ordered asked).blank _
  · exact opens_nil

theorem opens_locking (database : Database) (isolation : Option IsolationLevel)
    (lock : Option LockLevel) : Opens (Query.lockingLexemes database isolation lock) := by
  unfold Query.lockingLexemes
  split
  · split
    · rename_i given
      exact opens_word (Dialect.trailing_locks given).blank _
    · exact opens_cons rfl rfl []
  · split
    · rename_i given
      exact opens_word (Dialect.trailing_isolation given).blank _
    · exact opens_nil
  · exact opens_nil

theorem opens_name (database : Database) (handle : Alias) :
    Opens (Source.nameLexemes database handle) := by
  unfold Source.nameLexemes
  split
  · exact opens_word (by cases database.dialect <;> rfl) _
  · exact opens_nil

theorem opens_joins (database : Database) (joins : List Join) :
    Opens (Query.joinLexemes database joins) := by
  cases joins with
  | nil => exact opens_nil
  | cons join rest =>
      cases join with
      | mk kind _ _ => exact opens_word (by cases kind <;> rfl) _

theorem opens_operands (database : Database) (operands : List Operand) :
    Opens (Query.operandLexemes database operands) := by
  cases operands with
  | nil => exact opens_nil
  | cons operand rest =>
      cases operand with
      | mk operator _ => exact opens_word (by cases operator <;> rfl) _

theorem opens_condition {keyword : String} (blank : keyword.toList.head? = some ' ')
    (body : Option (List Lexeme)) : Opens (Query.condition keyword body) := by
  unfold Query.condition
  split
  · exact opens_word blank _
  · exact opens_nil

end Lexeme

/-! ## Operands -/

/-- What a negation is written ahead of begins without a sign: an operand that binds as
loosely as a negation stands in parentheses. -/
theorem Expr.exists_opensOperand (database : Database) (operand : Expr) :
    ∃ first ∈ (Lexeme.flatten
        (operand.placed database .unary true (operand.lexemes database))).head?,
      first.opensOperand = true := by
  simp only [Expr.placed, Lexeme.grouped]
  split
  · exact ⟨.opening true, rfl, rfl⟩
  · rename_i tight
    have primary : operand.precedence database.dialect = .primary := by
      apply Precedence.level_injective
      simp only [Expr.needsGroup, Precedence.level, Bool.true_and, Bool.or_eq_true,
        beq_iff_eq, not_or] at tight ⊢
      cases level : operand.precedence database.dialect <;>
        simp [level] at tight ⊢
    cases operand with
    | argument _ | call _ _ _ | countAll | cast _ _ | subquery _ | case _ _ =>
        exact ⟨_, rfl, rfl⟩
    | column reference =>
        cases reference with
        | resolved _ | unresolved _ _ => exact ⟨_, rfl, rfl⟩
    | literal value =>
        have unsigned : value.isNegative = false := by
          simpa [Expr.precedence] using primary
        by_cases finite : value.hasLiteral = true
        · exact ⟨.literal value, by simp [Expr.lexemes, finite, Lexeme.flat],
            by simp [Lexeme.opensOperand, unsigned]⟩
        · exact ⟨.argument value, by simp [Expr.lexemes, finite, Lexeme.flat], rfl⟩
    | window function _ _ _ =>
        simp only [Expr.lexemes]
        split
        · exact ⟨_, rfl, rfl⟩
        · exact ⟨.function function, rfl, rfl⟩
    | binary operator left right =>
        have joined : operator = .concat ∧ database.dialect.concatOperator? = none := by
          cases operator <;>
            simp_all [Expr.precedence, BinaryOperator.precedence]
        rw [Expr.lexemes, if_pos joined]
        exact ⟨_, rfl, rfl⟩
    | _ => cases primary

theorem Source.displayName_mem_names (database : Database) (source : Source) :
    source.alias.displayName ∈ source.names database := by
  cases source with
  | mk handle relation => cases relation <;> exact List.mem_cons_self

theorem Query.displayNames_subset (database : Database) (joins : List Join) :
    (joins.map (·.source.alias)).map Alias.displayName ⊆ Query.joinNames database joins := by
  induction joins with
  | nil => exact List.Subset.refl []
  | cons join rest ih =>
      cases join with
      | mk kind source on =>
          simp only [List.map_cons, List.cons_subset, Query.joinNames, List.append_assoc]
          exact ⟨List.mem_append_left _ (source.displayName_mem_names database),
            List.Subset.trans ih
              (List.Subset.trans (List.subset_append_right _ _) (List.subset_append_right _ _))⟩

theorem Database.composed_tableName (database : Database) (handle : Alias) :
    Composed (handle.tableNames database) (database.tableName handle.table) := by
  have table : Composed (handle.tableNames database) handle.table.name :=
    .name (List.mem_cons_of_mem _ List.mem_cons_self)
  unfold Database.tableName Dialect.qualifiedName
  split
  · rename_i schema given
    split
    · exact table
    · refine .append (.append (.name ?_) (.fixed (by decide))) table
      simp [Alias.tableNames, given]
  · exact table

theorem Dialect.composed_temporaryName {dialect : Dialect} {names : List String}
    {name text : String} (known : dialect.temporaryName? name = some text)
    (composed : Composed names name) : Composed names text := by
  cases dialect with
  | oracle => cases known
  | ansi | postgres | mysql | sqlite =>
      cases known
      exact composed
  | sqlserver | db2 | derby =>
      cases known
      exact .append (.fixed (by decide)) composed

open Lexeme in
mutual

theorem Expr.neat (database : Database) (expr : Expr) :
    Neat (expr.names database) (expr.lexemes database) := by
  cases expr with
  | argument value => exact .last rfl rfl rfl
  | literal value =>
      simp only [Expr.lexemes]
      split
      · exact .last rfl rfl rfl
      · exact .last rfl rfl rfl
  | column reference =>
      cases reference with
      | resolved resolved => exact .column resolved
      | unresolved _ _ => exact .last rfl rfl rfl
  | not operand =>
      exact .fixed_cons rfl ((operand.neat database).placed database .unary false operand)
  | negate operand =>
      obtain ⟨first, begins, unsigned⟩ := operand.exists_opensOperand database
      exact .asking_cons rfl rfl begins unsigned
        ((operand.neat database).placed database .unary true operand)
  | binary operator left right =>
      have leftNeat := left.neat database
      have rightNeat := right.neat database
      simp only [Expr.lexemes]
      split
      · exact .call rfl rfl rfl
          (leftNeat.append (.fixed_cons rfl rightNeat) (opens_cons rfl rfl _))
      · exact (leftNeat.placed _ _ _ left).append
          (.fixed_cons rfl (rightNeat.placed _ _ _ right)) (opens_cons rfl rfl _)
  | between negated operand low high =>
      have operandNeat := (operand.neat database).placed database .predicate true operand
      have lowNeat := (low.neat database).placed database .additive false low
      have highNeat := (high.neat database).placed database .additive false high
      exact (operandNeat.append (.fixed_cons rfl lowNeat) (opens_cons rfl rfl _)).append
        (.fixed_cons rfl highNeat) (opens_cons rfl rfl _)
  | like negated operand pattern =>
      have operandNeat := (operand.neat database).placed database .predicate true operand
      have patternNeat := (pattern.neat database).placed database .additive false pattern
      exact operandNeat.append (.fixed_cons rfl patternNeat) (opens_cons rfl rfl _)
  | inList negated operand items =>
      have operandNeat := (operand.neat database).placed database .predicate true operand
      exact operandNeat.append (.fixed_cons rfl (.enclosed (Expr.listNeat database items)))
        (opens_cons rfl rfl _)
  | inQuery negated operand query =>
      have operandNeat := (operand.neat database).placed database .predicate true operand
      exact operandNeat.append (.fixed_cons rfl (.query (query.neat database)))
        (opens_cons rfl rfl _)
  | «exists» negated query => exact .fixed_cons rfl (.query (query.neat database))
  | isNull negated operand =>
      have operandNeat := (operand.neat database).placed database .predicate true operand
      exact operandNeat.append_silent (.last rfl rfl rfl) (opens_cons rfl rfl _)
  | call function distinct arguments =>
      have argumentsNeat := Expr.listNeat database arguments
      refine .call rfl rfl rfl ?_
      cases distinct with
      | false => exact argumentsNeat
      | true => exact .fixed_cons rfl argumentsNeat
  | countAll => exact .call rfl rfl rfl (.last rfl rfl rfl)
  | cast operand type =>
      have operandNeat := operand.neat database
      exact .call rfl rfl rfl
        (operandNeat.append_silent (.last rfl rfl rfl) (opens_cons rfl rfl _))
  | window function arguments partition order =>
      have argumentsNeat := Expr.listNeat database arguments
      have partitionNeat := Expr.listNeat database partition
      have orderNeat := Expr.orderNeat database order
      simp only [Expr.lexemes]
      split
      · exact .fixed_cons rfl .nil
      · refine .append (.call rfl rfl rfl argumentsNeat)
          (.fixed_cons rfl (.enclosed ?_)) (opens_cons rfl rfl _)
        have partitioned := Neat.windowClause .partitionBy rfl
          partition.isEmpty database.dialect.supportsPartition partitionNeat
        have ordered (following : Bool) := Neat.windowClause (.orderBy following) rfl
          order.isEmpty database.dialect.supportsWindowOrder orderNeat
        -- Behind a partition the order begins with a blank; with none it begins the window.
        cases behind : !partition.isEmpty && database.dialect.supportsPartition with
        | true =>
            rw [behind] at partitioned
            refine partitioned.append (ordered true) ?_
            split
            · exact opens_cons rfl rfl _
            · exact opens_nil
        | false => exact (ordered false).mono (List.subset_append_right _ _)
  | subquery query => exact .query (query.neat database)
  | case branches otherwise =>
      have branchesNeat := Expr.branchNeat database branches
      have otherwiseNeat := Expr.optionNeat database otherwise
      have opened : Neat [] [.case] := .last rfl rfl rfl
      refine .append_silent (.append (opened.append branchesNeat ?_) ?_ ?_) (.last rfl rfl rfl)
        (opens_cons rfl rfl _)
      · cases branches with
        | nil => exact opens_nil
        | cons _ _ => exact opens_cons rfl rfl _
      · cases otherwise with
        | none => exact otherwiseNeat
        | some _ => exact .fixed_cons rfl otherwiseNeat
      · cases otherwise with
        | none => exact opens_nil
        | some _ => exact opens_cons rfl rfl _

theorem Expr.listNeat (database : Database) (exprs : List Expr) :
    Neat (Expr.listNames database exprs) (separated (Expr.listLexemes database exprs)) := by
  cases exprs with
  | nil => exact .nil
  | cons expr rest => exact .separated_cons (expr.neat database) (Expr.listNeat database rest)

theorem Expr.orderNeat (database : Database) (items : List (OrderItem Expr)) :
    Neat (Expr.orderNames database items) (separated (Expr.orderLexemes database items)) := by
  cases items with
  | nil => exact .nil
  | cons item rest =>
      cases item with
      | mk expr descending =>
          have exprNeat := expr.neat database
          refine .separated_cons ?_ (Expr.orderNeat database rest)
          cases descending with
          | false => simpa using exprNeat
          | true => exact exprNeat.append_silent (.last rfl rfl rfl) (opens_cons rfl rfl _)

theorem Expr.branchNeat (database : Database) (branches : List (Branch Expr)) :
    Neat (Expr.branchNames database branches) (Expr.branchLexemes database branches) := by
  cases branches with
  | nil => exact .nil
  | cons branch rest =>
      cases branch with
      | mk condition result =>
          have conditionNeat := condition.neat database
          have resultNeat := result.neat database
          refine .append (.append (.fixed_cons rfl conditionNeat) (.fixed_cons rfl resultNeat)
            (opens_cons rfl rfl _)) (Expr.branchNeat database rest) ?_
          cases rest with
          | nil => exact opens_nil
          | cons _ _ => exact opens_cons rfl rfl _

theorem Expr.optionNeat (database : Database) (expr : Option Expr) :
    Neat (Expr.optionNames database expr) ((Expr.optionLexemes database expr).getD []) := by
  cases expr with
  | none => exact .nil
  | some expr => exact expr.neat database

theorem Source.neat (database : Database) (source : Source) :
    Neat (source.names database) (source.lexemes database) := by
  cases source with
  | mk handle relation =>
      have named : Neat (Source.names database ⟨handle, relation⟩)
          (Source.nameLexemes database handle) :=
        (Neat.name database handle).mono
          (by simpa using Source.displayName_mem_names database ⟨handle, relation⟩)
      cases relation with
      | table => exact .word_cons (database.composed_tableName handle) named
      | temporary =>
          simp only [Source.lexemes]
          split
          · rename_i text given
            have table : Composed [handle.displayName, handle.table.name] handle.table.name :=
              .name (List.mem_cons_of_mem _ List.mem_cons_self)
            exact .word_cons (Dialect.composed_temporaryName given table) named
          · exact .fixed_cons rfl named
      | derived query =>
          have inner := Neat.query (query.neat database)
          exact (inner.append named (opens_name database handle)).mono (by simp [Source.names])
      | common query =>
          refine .cons rfl rfl ?_ .nil
          intro text known
          exact .name known

theorem Query.joinNeat (database : Database) (joins : List Join) :
    Neat (Query.joinNames database joins) (Query.joinLexemes database joins) := by
  cases joins with
  | nil => exact .nil
  | cons join rest =>
      cases join with
      | mk kind source on =>
          have sourceNeat := source.neat database
          have keyword : Harmless kind.keyword := by cases kind <;> decide
          have onNeat := (Expr.optionNeat database on).condition " on " (by decide)
          exact .append (.append (.word_cons (.fixed keyword) sourceNeat) onNeat
            (opens_condition rfl _)) (Query.joinNeat database rest) (opens_joins database rest)

theorem Query.projectionNeat (database : Database) (position : Nat)
    (projections : List Projection) :
    Neat (Query.projectionNames database projections)
      (separated (Query.projectionLexemes database position projections)) := by
  cases projections with
  | nil => exact .nil
  | cons projection rest =>
      cases projection with
      | mk expr label =>
          have exprNeat := expr.neat database
          refine .separated_cons (exprNeat.append (.label ⟨expr, label⟩ position) ?_)
            (Query.projectionNeat database (position + 1) rest)
          unfold Projection.labelLexemes
          split
          · exact opens_word rfl _
          · exact opens_nil

theorem Query.operandNeat (database : Database) (operands : List Operand) :
    Neat (Query.operandNames database operands) (Query.operandLexemes database operands) := by
  cases operands with
  | nil => exact .nil
  | cons operand rest =>
      cases operand with
      | mk operator query =>
          have keyword : Harmless operator.keyword := by cases operator <;> decide
          exact .append (.word_cons (.fixed keyword) (query.neat database))
            (Query.operandNeat database rest) (opens_operands database rest)

/-- A query is written neatly, with no names but its own. -/
theorem Query.neat (database : Database) (query : Query) :
    Neat (query.names database) (query.lexemes database) := by
  cases query with
  | mk distinct projection source joins filter groupBy having operands orderBy fetchFirst
      offset isolation lock =>
      have keyword : Harmless (if distinct then "select distinct " else "select ") := by
        cases distinct <;> decide
      -- Without entries of its own a SELECT list names every source.
      have selected : Neat (Query.projectionNames database projection ++
          (source.names database ++ Query.joinNames database joins))
          (if projection.isEmpty then
            Query.everyColumn (source.alias :: joins.map (·.source.alias))
          else separated (Query.projectionLexemes database 1 projection)) := by
        cases projection with
        | nil =>
            refine (Neat.everyColumn _).mono (List.cons_subset.mpr ⟨?_, ?_⟩)
            · exact List.mem_append_left (Query.joinNames database joins)
                (source.displayName_mem_names database)
            · exact List.Subset.trans (Query.displayNames_subset database joins)
                (List.subset_append_right (Source.names database source) _)
        | cons first rest =>
            exact (Query.projectionNeat database 1 (first :: rest)).mono
              (List.subset_append_left _ _)
      have sourced := (selected.word_cons (.fixed keyword)).append
        ((source.neat database).fixed_word_cons " from " (by decide)) (opens_word rfl _)
      have joined := sourced.append (Query.joinNeat database joins) (opens_joins database joins)
      have once : Query.projectionNames database projection ++
            (source.names database ++ Query.joinNames database joins) ++
            source.names database ++ Query.joinNames database joins ⊆
          Query.projectionNames database projection ++ source.names database ++
            Query.joinNames database joins := by simp
      have filtered := (joined.mono once).append ((Expr.optionNeat database filter).condition
        " where " (by decide)) (opens_condition rfl _)
      have grouped := filtered.append ((Expr.listNeat database groupBy).clause
        " group by " (by decide)) (opens_clause rfl _)
      have restricted := grouped.append ((Expr.optionNeat database having).condition
        " having " (by decide)) (opens_condition rfl _)
      have combined := restricted.append (Query.operandNeat database operands)
        (opens_operands database operands)
      have ordered := combined.append ((Expr.orderNeat database orderBy).clause
        " order by " (by decide)) (opens_clause rfl _)
      exact (ordered.append_silent (.pagination database fetchFirst offset _)
        (opens_pagination database fetchFirst offset _)).append_silent
          (.locking database isolation lock) (opens_locking database isolation lock)

end

/-! ## Whole statements -/

open Lexeme

theorem CommonQuery.neat_declaration (database : Database) (common : CommonQuery) :
    Neat (common.names database) (common.declaration database) := by
  have body := (Neat.query (common.query.neat database)).mono
    (List.subset_cons_self common.alias.displayName _)
  exact .word_cons (.name List.mem_cons_self) (.word_cons (.fixed (by decide)) body)

theorem CommonQuery.neat_declarations (database : Database) (tables : List CommonQuery) :
    Neat (tables.flatMap (CommonQuery.names database))
      (separated (tables.map (CommonQuery.declaration database))) := by
  induction tables with
  | nil => exact .nil
  | cons common rest ih =>
      rw [List.flatMap_cons, List.map_cons]
      exact .separated_cons (common.neat_declaration database) ih

/-- A statement is written neatly, with no names but those in use. -/
theorem Query.neat_statement (database : Database) (query : Query) :
    Neat (query.namesInUse database) (query.statement database) := by
  have declared := CommonQuery.neat_declarations database
    (query.hoisted database.dialect.windowClauses)
  have body := query.neat database
  rw [Query.statement, Query.namesInUse]
  cases tables : query.hoisted database.dialect.windowClauses with
  | nil => exact body
  | cons common rest =>
      rw [tables] at declared
      exact (declared.fixed_word_cons "with " (by decide)).append
        (body.fixed_word_cons " " (by decide)) (opens_word rfl _)

end SqlSelect
