import SqlSelect.Proofs.Building.FirstError

/-!
# Conditions built piece by piece

The condition of a clause is built on the statement piece by piece, or apart from it and
then taken as a whole.  On the statement each piece is bound as it comes; apart from it the
pieces are put together first and bound at once.  Either way the same statement comes out.
-/

namespace SqlSelect

/-! ## Chains of pieces -/

/-- A condition with further pieces behind it.  Each connective applies to all that is ahead
of it. -/
def Term.chain (first : Term) (more : List (Connective × Term)) : Term :=
  more.foldl (fun left piece => left.extend piece.1 piece.2) first

/-- The expression of a chain, from those of its pieces. -/
def Expr.chain (first : Expr) (more : List (Connective × Expr)) : Expr :=
  more.foldl (fun left piece => .binary piece.1.operator left piece.2) first

/-- The expressions of some pieces in a scope, or the first error among them. -/
def Term.boundPieces (scope : Scope) (pieces : List (Connective × Term)) :
    Except QueryError (List (Connective × Expr)) :=
  pieces.mapM fun piece => do return (piece.1, ← piece.2.bound scope)

/-- The step that writes the first condition into a clause. -/
def Clause.opening (clause : Clause) (condition : Term) : Step :=
  match clause with
  | .on => .on condition
  | .filter => .filter condition
  | .having => .having condition

/-- The stage behind the condition of a clause. -/
def Clause.stage : Clause → Stage
  | .on => .inOn
  | .filter => .inFilter
  | .having => .inHaving

/-- A query with the condition of a clause replaced. -/
def Query.withCondition (query : Query) (condition : Expr) : Clause → Query
  | .on => query.mapLastOn fun _ => condition
  | .filter => { query with filter := some condition }
  | .having => { query with having := some condition }

namespace Select

/-- A statement with a condition in a clause, right behind that clause. -/
def holding (select : Select) (clause : Clause) (condition : Expr) : Select :=
  { select with query := select.query.withCondition condition clause, stage := clause.stage }

/-- The statement that takes the pieces of a condition one by one. -/
def pieced (select : Select) (clause : Clause) (first : Term) (more : List (Connective × Term)) :
    Select :=
  select.run (clause.opening first :: more.map fun piece => .extend piece.1 piece.2)

/-- The statement that takes the same pieces as one condition, put together apart from it. -/
def whole (select : Select) (clause : Clause) (first : Term) (more : List (Connective × Term)) :
    Select :=
  select.apply (clause.opening (first.chain more))

end Select

variable {scope : Scope} {select : Select} {clause : Clause} {connective : Connective}
  {first condition : Term} {more : List (Connective × Term)} {left expr : Expr}

/-! ## Putting pieces together and binding them -/

theorem Term.bound_extend {left right : Term} :
    (left.extend connective right).bound scope = .ok expr ↔
      ∃ leftExpr rightExpr, left.bound scope = .ok leftExpr ∧
        right.bound scope = .ok rightExpr ∧
          expr = .binary connective.operator leftExpr rightExpr := by
  simp only [bound, extend, assemble, except_bind_ok, except_pure_ok]
  constructor
  · rintro ⟨_, ⟨left, leftAssembles, right, rightAssembles, rfl⟩, binds⟩
    simp only [Expr.bind, except_bind_ok, except_pure_ok] at binds
    obtain ⟨leftBound, leftBinds, rightBound, rightBinds, rfl⟩ := binds
    exact ⟨leftBound, rightBound, ⟨left, leftAssembles, leftBinds⟩,
      ⟨right, rightAssembles, rightBinds⟩, rfl⟩
  · rintro ⟨_, _, ⟨left, leftAssembles, leftBinds⟩, ⟨right, rightAssembles, rightBinds⟩, rfl⟩
    refine ⟨_, ⟨left, leftAssembles, right, rightAssembles, rfl⟩, ?_⟩
    simp only [Expr.bind, except_bind_ok, except_pure_ok]
    exact ⟨_, leftBinds, _, rightBinds, rfl⟩

/-- A chain is bound if each of its pieces is. -/
theorem Term.bound_chain :
    (first.chain more).bound scope = .ok expr ↔
      ∃ head tail, first.bound scope = .ok head ∧ boundPieces scope more = .ok tail ∧
        expr = head.chain tail := by
  induction more generalizing first with
  | nil =>
      constructor
      · exact fun binds => ⟨expr, [], binds, rfl, rfl⟩
      · rintro ⟨head, _, binds, ⟨⟩, rfl⟩
        exact binds
  | cons piece rest ih =>
      rw [chain, List.foldl_cons, ← chain, ih]
      simp only [bound_extend, boundPieces, List.mapM_cons, except_bind_ok, except_pure_ok]
      constructor
      · rintro ⟨_, tail, ⟨head, second, binds, secondBinds, rfl⟩, tailBinds, rfl⟩
        exact ⟨head, _, binds, ⟨_, ⟨second, secondBinds, rfl⟩, tail, tailBinds, rfl⟩, rfl⟩
      · rintro ⟨head, _, binds, ⟨_, ⟨second, secondBinds, rfl⟩, tail, tailBinds, rfl⟩, rfl⟩
        exact ⟨_, tail, ⟨head, second, binds, secondBinds, rfl⟩, tailBinds, rfl⟩

theorem Term.chain_concat (first : Term) (before : List (Connective × Term))
    (last : Connective × Term) :
    first.chain (before ++ [last]) = (first.chain before).extend last.1 last.2 :=
  List.foldl_append

theorem Expr.lexemes_connective (database : Database) (connective : Connective)
    (left right : Expr) :
    (binary connective.operator left right).lexemes database =
      left.placed database connective.operator.precedence false (left.lexemes database) ++
        .operator connective.operator ::
          right.placed database connective.operator.precedence true (right.lexemes database) := by
  have logical : ¬(connective.operator = .concat ∧ database.dialect.concatOperator? = none) := by
    cases connective <;> simp [Connective.operator]
  rw [lexemes, if_neg logical]

/-- What is joined by `or` stands in parentheses ahead of `and`. -/
theorem Expr.lexemes_and_of_or (database : Database) (left middle right : Expr) :
    (binary .and (binary .or left middle) right).lexemes database =
      .opening true :: (binary .or left middle).lexemes database ++
        .closing true :: .operator .and ::
          right.placed database BinaryOperator.and.precedence true (right.lexemes database) := by
  have grouped : (binary .or left middle).needsGroup database.dialect
      BinaryOperator.and.precedence false = true := by rfl
  refine (lexemes_connective database .and _ right).trans ?_
  rw [placed, Connective.operator, grouped, Lexeme.grouped]
  simp

/-! ## Taking pieces one by one -/

/-- The condition of the last join may be replaced before it is changed. -/
theorem Query.mapLastOn_mapLastOn (query : Query) (first second : Option Expr → Expr) :
    (query.mapLastOn first).mapLastOn second =
      query.mapLastOn fun existing => second (some (first existing)) := by
  rcases List.eq_nil_or_concat query.joins with none | ⟨earlier, last, joins⟩
  · simp [mapLastOn, none]
  · rw [List.concat_eq_append] at joins
    simp [mapLastOn, joins]

/-- A piece is joined on to the condition that is there. -/
theorem Query.extendClause_withCondition (query : Query) (clause : Clause) (left : Expr)
    (connective : Connective) (right : Expr) :
    (query.withCondition left clause).extendClause connective right clause =
      query.withCondition (.binary connective.operator left right) clause := by
  cases clause with
  | on =>
      exact query.mapLastOn_mapLastOn (fun _ => left)
        (fun existing => extendCondition existing connective right)
  | filter | having => rfl

namespace Select

/-- The first condition is written, if it is bound; otherwise its error is recorded. -/
theorem apply_opening (fine : select.failure = none) (joinless : clause ≠ .on) {stage : Stage}
    (allowed : (clause.opening condition).next? select.stage = some stage) :
    select.apply (clause.opening condition) =
      match condition.bound select.scope with
      | .ok expr => select.holding clause expr
      | .error error => { select with failure := some error, stage := clause.stage } := by
  rw [apply_of_next? allowed]
  cases clause with
  | on => exact (joinless rfl).elim
  | filter | having =>
      simp only [Clause.opening, Step.next?, Option.ite_none_right_eq_some,
        Option.some.injEq] at allowed
      obtain ⟨_, rfl⟩ := allowed
      simp only [Clause.opening, edit, bindTerm_of_fine fine]
      cases condition.bound select.scope <;> rfl

/-- A piece is joined on to the condition that is there, if it is bound; otherwise its error
is recorded. -/
theorem apply_extend (fine : select.failure = none) (clause : Clause) (left : Expr)
    (connective : Connective) (condition : Term) :
    (select.holding clause left).apply (.extend connective condition) =
      match condition.bound select.scope with
      | .ok right => select.holding clause (.binary connective.operator left right)
      | .error error => { select.holding clause left with failure := some error } := by
  have bindsAs : (select.holding clause left).bindTerm condition = condition.bound select.scope :=
    bindTerm_of_fine fine condition
  have allowed : (Step.extend connective condition).next? (select.holding clause left).stage =
      some clause.stage := by
    cases clause <;> rfl
  have current : (select.holding clause left).stage.clause? = some clause := by
    cases clause <;> rfl
  rw [apply_of_next? allowed]
  simp only [edit, current, bindsAs]
  cases condition.bound select.scope with
  | error error => rfl
  | ok right =>
      have joined := select.query.extendClause_withCondition clause left connective right
      simp only [holding, amend, bind, Except.bind, pure, Except.pure, joined]

/-- The pieces behind a condition are joined on from left to right, up to the first that is not
bound. -/
theorem run_extend (fine : select.failure = none) (clause : Clause) (left : Expr)
    (more : List (Connective × Term)) :
    match Term.boundPieces select.scope more with
    | .ok tail =>
      (select.holding clause left).run (more.map fun piece => .extend piece.1 piece.2) =
        select.holding clause (left.chain tail)
    | .error error =>
      ((select.holding clause left).run
        (more.map fun piece => .extend piece.1 piece.2)).failure = some error := by
  induction more generalizing left with
  | nil => rfl
  | cons piece rest ih =>
      -- The rest is joined on to a longer condition, which is why `left` is general.
      rw [List.map_cons, run_cons, apply_extend fine clause, Term.boundPieces, List.mapM_cons,
        ← Term.boundPieces]
      cases piece.2.bound select.scope with
      | error error => exact failure_run_of_some rfl _
      | ok right =>
          have restTaken := ih (.binary piece.1.operator left right)
          change match (Term.boundPieces select.scope rest >>= fun tail =>
            pure ((piece.1, right) :: tail)) with
            | .ok tail => _
            | .error error => _
          cases restBinds : Term.boundPieces select.scope rest with
          | error error =>
              rw [restBinds] at restTaken
              exact restTaken
          | ok tail =>
              rw [restBinds] at restTaken
              exact restTaken

theorem pieced_of_bound (fine : select.failure = none) (joinless : clause ≠ .on) {stage : Stage}
    (allowed : (clause.opening first).next? select.stage = some stage) {head : Expr}
    {tail : List (Connective × Expr)} (binds : first.bound select.scope = .ok head)
    (moreBinds : Term.boundPieces select.scope more = .ok tail) :
    select.pieced clause first more = select.holding clause (head.chain tail) := by
  have taken := run_extend fine clause head more
  rw [moreBinds] at taken
  rw [pieced, run_cons, apply_opening fine joinless allowed, binds]
  exact taken

theorem pieced_fails (fine : select.failure = none) (joinless : clause ≠ .on) {stage : Stage}
    (allowed : (clause.opening first).next? select.stage = some stage)
    (unbound : ¬ ∃ expr, (first.chain more).bound select.scope = .ok expr) :
    (select.pieced clause first more).failure ≠ none := by
  rw [pieced, run_cons, apply_opening fine joinless allowed]
  cases binds : first.bound select.scope with
  | error error =>
      rw [failure_run_of_some rfl]
      exact Option.some_ne_none error
  | ok head =>
      have taken := run_extend fine clause head more
      cases moreBinds : Term.boundPieces select.scope more with
      | error error =>
          rw [moreBinds] at taken
          rw [taken]
          exact Option.some_ne_none error
      | ok tail =>
          exact (unbound ⟨_, Term.bound_chain.mpr ⟨head, tail, binds, moreBinds, rfl⟩⟩).elim

/-! ## Both ways -/

/-- Where a condition may open, all that opens it may. -/
theorem next?_opening (clause : Clause) (condition other : Term) (stage : Stage) :
    (clause.opening condition).next? stage = (clause.opening other).next? stage := by
  cases clause <;> rfl

/-- A condition comes to the same, taken piece by piece or as a whole. -/
structure SameEitherWay (select : Select) (clause : Clause) (first : Term)
    (more : List (Connective × Term)) : Prop where
  /-- Both statements record an error, or neither does. -/
  fine : (select.pieced clause first more).failure = none ↔
    (select.whole clause first more).failure = none
  /-- Without an error they are the same statement. -/
  same : (select.whole clause first more).failure = none →
    select.pieced clause first more = select.whole clause first more
  /-- So they have the same text and the same arguments in any dialect. -/
  prepare : (select.whole clause first more).failure = none → ∀ database : Database,
    (select.pieced clause first more).query.prepare database =
      (select.whole clause first more).query.prepare database
  /-- Each connective applies to all that is ahead of it. -/
  ahead : (select.whole clause first more).failure = none →
    ∃ head tail, first.bound select.scope = .ok head ∧
      Term.boundPieces select.scope more = .ok tail ∧
        (select.whole clause first more).query =
          select.query.withCondition (head.chain tail) clause
  /-- So `and` behind `or` is written behind parentheses around all that is ahead of it. -/
  grouped : (select.whole clause first more).failure = none →
    ∀ before second last, more = before ++ [(.or, second)] ++ [(.and, last)] →
      ∃ left right, (first.chain (before ++ [(.or, second)])).bound select.scope = .ok left ∧
        last.bound select.scope = .ok right ∧
        (select.whole clause first more).query =
          select.query.withCondition (.binary .and left right) clause ∧
        ∀ database, (Expr.binary .and left right).lexemes database =
          .opening true :: left.lexemes database ++ .closing true :: .operator .and ::
            right.placed database BinaryOperator.and.precedence true (right.lexemes database)

theorem same_either_way (fine : select.failure = none) (joinless : clause ≠ .on) {stage : Stage}
    (allowed : (clause.opening first).next? select.stage = some stage)
    (more : List (Connective × Term)) : select.SameEitherWay clause first more := by
  have taken : select.whole clause first more = _ :=
    apply_opening fine joinless ((next?_opening clause _ _ _).trans allowed)
  -- The errors may differ: what is bound piece by piece can fail before a later piece does.
  cases binds : (first.chain more).bound select.scope with
  | error error =>
      rw [binds] at taken
      have failed : (select.whole clause first more).failure ≠ none := by
        rw [taken]
        exact Option.some_ne_none error
      have unbound : ¬ ∃ expr, (first.chain more).bound select.scope = .ok expr := by
        simp [binds]
      have piecedFailed := pieced_fails fine joinless allowed unbound
      exact ⟨iff_of_false piecedFailed failed, (absurd · failed), (absurd · failed),
        (absurd · failed), (absurd · failed)⟩
  | ok expr =>
      rw [binds] at taken
      obtain ⟨head, tail, firstBinds, moreBinds, rfl⟩ := Term.bound_chain.mp binds
      have pieces := pieced_of_bound fine joinless allowed firstBinds moreBinds
      have same : select.pieced clause first more = select.whole clause first more :=
        pieces.trans taken.symm
      have written : (select.whole clause first more).query =
          select.query.withCondition (head.chain tail) clause := by
        rw [taken]
        rfl
      constructor
      case fine => rw [same]
      case same => exact fun _ => same
      case prepare =>
        intro _ database
        rw [same]
      case ahead => exact fun _ => ⟨head, tail, firstBinds, moreBinds, written⟩
      case grouped =>
        rintro _ before second last rfl
        rw [Term.chain_concat, Term.bound_extend] at binds
        obtain ⟨left, right, leftBinds, rightBinds, joined⟩ := binds
        refine ⟨left, right, leftBinds, rightBinds, by rw [written, joined]; rfl, ?_⟩
        rw [Term.chain_concat, Term.bound_extend] at leftBinds
        obtain ⟨_, _, _, _, rfl⟩ := leftBinds
        exact fun database => Expr.lexemes_and_of_or database _ _ _

end Select

namespace Sample

/-- A key of a person, compared to a number. -/
def keyed (operator : BinaryOperator) (number : Int64) : Term :=
  .binary operator (.column person key .any) (.value (.bigInt number))

/-- Behind the first: one number or the other, and not above a third. -/
def bounds : List (Connective × Term) :=
  [(.or, keyed .equal 2), (.and, keyed .lessEqual 9)]

theorem bounds_either_way :
    everyone.failure = none ∧ Clause.filter ≠ .on ∧
      (Clause.filter.opening (keyed .equal 1)).next? everyone.stage = some .inFilter ∧
      everyone.SameEitherWay .filter (keyed .equal 1) bounds ∧
      (everyone.pieced .filter (keyed .equal 1) bounds).text =
        .ok "select p.* from PERSON as p where (p.KEY = ? or p.KEY = ?) and p.KEY <= ?" := by
  have fine : everyone.failure = none := by rfl
  have joinless : Clause.filter ≠ .on := by decide
  have allowed : (Clause.filter.opening (keyed .equal 1)).next? everyone.stage =
      some .inFilter := by rfl
  exact ⟨fine, joinless, allowed, Select.same_either_way fine joinless allowed bounds, by rfl⟩

end Sample

end SqlSelect
