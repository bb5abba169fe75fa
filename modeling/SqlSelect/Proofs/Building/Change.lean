import SqlSelect.Proofs.Closure.Invariant

/-!
# What a step changes

A step binds at most one term, and writes the bound expression into one clause.  A join
alone brings a source and an alias in sight, a union alone an operand.  Whatever is kept by
these changes is kept by every step.
-/

namespace SqlSelect

namespace Step

/-- The term that a step binds. -/
def term? : Step → Option Term
  | .on term | .extend _ term | .select term _ | .comma term _ | .filter term | .groupBy term
  | .having term | .orderBy term _ | .thenBy term _ => some term
  | .join .. | .distinct | .union .. | .fetchFirst _ | .offset _ | .isolation _ | .lock _ => none

/-- What a step makes of a query, with the bound expression of its term. -/
def write (query : Query) (stage : Stage) (expr : Expr) : Step → Except QueryError Query
  | .on _ => query.joinOn expr
  | .extend connective _ =>
    match stage.clause? with
    | some clause => .ok (query.extendClause connective expr clause)
    | none => .ok query
  | .select _ label => .ok { query with projection := query.projection ++ [⟨expr, label⟩] }
  | .comma _ label =>
    if stage = .inProjection then
      .ok { query with projection := query.projection ++ [⟨expr, label⟩] }
    else .ok { query with groupBy := query.groupBy ++ [expr] }
  | .filter _ => .ok { query with filter := some expr }
  | .groupBy _ => .ok { query with groupBy := query.groupBy ++ [expr] }
  | .having _ => .ok { query with having := some expr }
  | .orderBy _ descending | .thenBy _ descending =>
    .ok { query with orderBy := query.orderBy ++ [⟨expr, descending⟩] }
  | .join .. | .distinct | .union .. | .fetchFirst _ | .offset _ | .isolation _ | .lock _ =>
    .ok query

variable {step : Step} {stage : Stage}

theorem next?_eq_joining :
    step.next? stage = some .joining ↔
      ∃ source, step = .join .cross source ∧ stage.mayJoin = true := by
  cases step with
  | join kind source => cases kind <;> simp [next?]
  | extend _ _ | comma _ _ | distinct | thenBy _ _ => cases stage <;> simp [next?, Stage.clause?]
  | _ => simp [next?]

theorem next?_eq_awaitingOn :
    step.next? stage = some .awaitingOn ↔
      ∃ kind source, step = .join kind source ∧ kind ≠ .cross ∧ stage.mayJoin = true := by
  cases step with
  | join kind source => cases kind <;> simp [next?]
  | extend _ _ | comma _ _ | distinct | thenBy _ _ => cases stage <;> simp [next?, Stage.clause?]
  | _ => simp [next?]

theorem next?_eq_inOn :
    step.next? stage = some .inOn ↔
      (∃ condition, step = .on condition ∧ stage = .awaitingOn) ∨
        ∃ connective condition, step = .extend connective condition ∧ stage = .inOn := by
  cases step with
  | join kind source => cases kind <;> simp [next?]
  | extend _ _ | comma _ _ | distinct | thenBy _ _ => cases stage <;> simp [next?, Stage.clause?]
  | _ => simp [next?]

/-- Behind a join that needs its condition, nothing else may follow. -/
theorem isComplete_of_next? {next : Stage} (allowed : step.next? stage = some next)
    (elsewhere : next ≠ .inOn) : stage.isComplete = true := by
  cases stage with
  | awaitingOn =>
      cases step with
      | join kind _ => cases kind <;> simp [next?, Stage.mayJoin] at allowed
      | on _ => simp_all [next?]
      | _ =>
          simp [next?, Stage.clause?, Stage.mayJoin, Stage.mayFilter, Stage.mayGroup,
            Stage.mayOrder, Stage.mayUnite, Stage.isComplete] at allowed
  | _ => rfl

end Step

namespace Query

variable {query : Query}

theorem joins_mapLastOn {earlier : List Join} {last : Join}
    (joins : query.joins = earlier ++ [last]) (change : Option Expr → Expr) :
    (query.mapLastOn change).joins = earlier ++ [{ last with on := some (change last.on) }] := by
  simp [mapLastOn, joins]

theorem joinOn_eq_ok {earlier : List Join} {last : Join} (joins : query.joins = earlier ++ [last])
    {condition : Expr} {changed : Query} (made : query.joinOn condition = .ok changed) :
    condition.references last.source.alias = true ∧
      changed = query.mapLastOn fun _ => condition := by
  simp only [joinOn, joins, List.getLast?_concat] at made
  split at made
  case isTrue references =>
    cases made
    exact ⟨references, rfl⟩
  case isFalse => cases made

theorem operands_mapLastOn (query : Query) (change : Option Expr → Expr) :
    (query.mapLastOn change).operands = query.operands := by
  rw [mapLastOn]
  split <;> rfl

theorem mem_exprs_mapLastOn {change : Option Expr → Expr} {expr : Expr}
    (member : expr ∈ (query.mapLastOn change).exprs) :
    expr ∈ query.exprs ∨
      ∃ existing, (∀ on, existing = some on → on ∈ query.exprs) ∧ expr = change existing := by
  rcases List.eq_nil_or_concat query.joins with none | ⟨earlier, last, joins⟩
  · rw [mapLastOn, none] at member
    exact .inl member
  · rw [List.concat_eq_append] at joins
    have old : ∀ on, last.on = some on → on ∈ query.exprs := by
      intro on condition
      exact mem_exprs.mpr (.inr (.inl ⟨last, by simp [joins], condition⟩))
    rw [mem_exprs, joins_mapLastOn joins] at member
    have written : expr ∈ query.exprs ∨ expr = change last.on := by
      rw [mem_exprs, joins]
      simp only [mapLastOn, joins] at member
      grind
    exact written.imp_right fun same => ⟨last.on, old, same⟩

end Query

/-- An expression is new, or a condition that extends an old one by the new one. -/
inductive Expr.Extends (old : Expr → Prop) (expr : Expr) : Expr → Prop where
  | new : Extends old expr expr
  | behind {left : Expr} (connective : Connective) :
      old left → Extends old expr (.binary connective.operator left expr)

theorem Expr.Extends.mono {old known : Expr → Prop} {expr written : Expr}
    (extension : expr.Extends old written) (subset : ∀ left, old left → known left) :
    expr.Extends known written := by
  cases extension with
  | new => exact .new
  | behind connective isOld => exact .behind connective (subset _ isOld)

theorem Expr.extends_extendCondition (existing : Option Expr) (connective : Connective)
    (expr : Expr) :
    expr.Extends (existing = some ·) (Query.extendCondition existing connective expr) := by
  cases existing with
  | none => exact .new
  | some left => exact .behind connective rfl

/-- A query is written anew with a bound expression: in one of its clauses, or in the
condition of its last join. -/
inductive Query.Rewrites (query : Query) (expr : Expr) : Query → Prop where
  | same : Rewrites query expr query
  | clause {changed : Query} {written : Expr} :
      query.Writes changed written → expr.Extends (· ∈ query.exprs) written →
      Rewrites query expr changed
  | lastOn {change : Option Expr → Expr} :
      (∀ existing, expr.Extends (existing = some ·) (change existing)) →
      Rewrites query expr (query.mapLastOn change)

theorem Step.rewrites_of_write {step : Step} {query changed : Query} {stage : Stage}
    {expr : Expr} (writes : step.write query stage expr = .ok changed) :
    query.Rewrites expr changed := by
  cases step with
  | on _ =>
      simp only [write, Query.joinOn] at writes
      split at writes
      · split at writes <;> cases writes
        exact .lastOn fun _ => .new
      · cases writes
        exact .same
  | extend connective _ =>
      simp only [write] at writes
      split at writes
      · cases writes
        rename_i clause _
        cases clause with
        | on => exact .lastOn fun existing => expr.extends_extendCondition existing connective
        | filter =>
            apply Query.Rewrites.clause (Query.writes_filter _)
            apply (expr.extends_extendCondition query.filter connective).mono
            intro left known
            simp [Query.mem_exprs, known]
        | having =>
            apply Query.Rewrites.clause (Query.writes_having _)
            apply (expr.extends_extendCondition query.having connective).mono
            intro left known
            simp [Query.mem_exprs, known]
      · cases writes
        exact .same
  | select _ label => cases writes; exact .clause (Query.writes_projection expr label) .new
  | comma _ label =>
      simp only [write] at writes
      split at writes <;> cases writes
      · exact .clause (Query.writes_projection expr label) .new
      · exact .clause (Query.writes_groupBy expr) .new
  | filter _ => cases writes; exact .clause (Query.writes_filter expr) .new
  | groupBy _ => cases writes; exact .clause (Query.writes_groupBy expr) .new
  | having _ => cases writes; exact .clause (Query.writes_having expr) .new
  | orderBy _ descending | thenBy _ descending =>
      cases writes
      exact .clause (Query.writes_orderBy expr descending) .new
  | join _ _ | distinct | union _ _ | fetchFirst _ | offset _ | isolation _ | lock _ =>
      cases writes
      exact .same

/-- A condition that is no join's is written into no join. -/
theorem Step.joins_write {step : Step} {query changed : Query} {stage next : Stage} {expr : Expr}
    (writes : step.write query stage expr = .ok changed)
    (allowed : step.next? stage = some next) (elsewhere : next ≠ .inOn) :
    changed.joins = query.joins := by
  cases step with
  | on condition =>
      simp only [next?, Option.ite_none_right_eq_some, Option.some.injEq] at allowed
      exact (elsewhere allowed.2.symm).elim
  | extend connective condition =>
      simp only [next?, Option.ite_none_right_eq_some, Option.some.injEq] at allowed
      obtain ⟨_, rfl⟩ := allowed
      cases stage with
      | inOn => exact (elsewhere rfl).elim
      | inFilter | inHaving => cases writes; rfl
      | joining | awaitingOn | inProjection | inGroupBy | inOrderBy | inUnion | ended =>
          cases writes
          rfl
  | comma _ _ =>
      simp only [write] at writes
      split at writes <;> cases writes <;> rfl
  | select _ _ | filter _ | groupBy _ | having _ | orderBy _ _ | thenBy _ _ | join _ _
  | distinct | union _ _ | fetchFirst _ | offset _ | isolation _ | lock _ =>
      cases writes
      rfl

namespace Query.Rewrites

variable {query changed : Query} {expr : Expr}

theorem sources (rewrites : query.Rewrites expr changed) : changed.sources = query.sources := by
  cases rewrites with
  | same => rfl
  | clause writes _ => rw [Query.sources, writes.source, writes.joins, Query.sources]
  | lastOn _ => exact query.sources_mapLastOn _

theorem operands (rewrites : query.Rewrites expr changed) :
    changed.operands = query.operands := by
  cases rewrites with
  | same => rfl
  | clause writes _ => exact writes.operands
  | lastOn _ => exact query.operands_mapLastOn _

/-- What holds of the old expressions and of the new one holds of all, if a connective
keeps it. -/
theorem forall_exprs {holds : Expr → Prop} (rewrites : query.Rewrites expr changed)
    (old : ∀ other ∈ query.exprs, holds other) (new : holds expr)
    (joined : ∀ (connective : Connective) (left : Expr), holds left →
      holds (.binary connective.operator left expr)) :
    ∀ other ∈ changed.exprs, holds other := by
  have extended {known : Expr → Prop} {written : Expr} (extension : expr.Extends known written)
      (knownHolds : ∀ left, known left → holds left) : holds written := by
    cases extension with
    | new => exact new
    | behind connective leftKnown => exact joined connective _ (knownHolds _ leftKnown)
  intro other member
  cases rewrites with
  | same => exact old other member
  | clause writes extension =>
      rcases writes.exprs other member with known | rfl
      · exact old other known
      · exact extended extension old
  | lastOn extension =>
      rcases Query.mem_exprs_mapLastOn member with known | ⟨existing, conditions, rfl⟩
      · exact old other known
      · exact extended (extension existing) fun left same => old left (conditions left same)

end Query.Rewrites

namespace Select

variable {select : Select}

/-- A step with a term binds it and writes the expression, or records why it could not. -/
theorem edit_of_term {step : Step} {term : Term} {stage : Stage}
    (allowed : step.next? select.stage = some stage) (takes : step.term? = some term) :
    ∃ shape, select.edit step =
      { select.amend (select.bindTerm term >>= fun expr =>
          step.write select.query select.stage expr) with shape } := by
  cases step with
  | join _ _ | distinct | union _ _ | fetchFirst _ | offset _ | isolation _ | lock _ =>
      cases takes
  | extend connective condition =>
      cases takes
      cases clause : select.stage.clause? with
      | none => simp [Step.next?, clause] at allowed
      | some _ =>
          simp only [edit, Step.write, clause]
          exact ⟨_, rfl⟩
  | comma term label =>
      cases takes
      by_cases projecting : select.stage = .inProjection
      · simp only [edit, Step.write, projecting, if_true]
        exact ⟨_, rfl⟩
      · simp only [edit, Step.write, projecting, if_false]
        exact ⟨_, rfl⟩
  | on _ | select _ _ | filter _ | groupBy _ | having _ | orderBy _ _ | thenBy _ _ =>
      cases takes
      exact ⟨_, rfl⟩

theorem apply_of_next? {step : Step} {stage : Stage}
    (allowed : step.next? select.stage = some stage) :
    select.apply step = { select.edit step with stage } := by
  rw [apply, allowed]

theorem failure_amend (result : Except QueryError Query) :
    (select.amend result).failure =
      match result with
      | .ok _ => select.failure
      | .error error => some error := by
  cases result <;> rfl

/-- A failure that is recorded stays. -/
theorem failure_apply_of_some {error : QueryError} (failed : select.failure = some error)
    (step : Step) : (select.apply step).failure = some error := by
  rw [apply]
  split
  case h_2 => exact failed
  case h_1 stage allowed =>
    have stops : select.proceed = .error error := by rw [proceed, failed]
    cases takes : step.term? with
    | some term =>
        obtain ⟨_, edited⟩ := edit_of_term allowed takes
        have bound : select.bindTerm term = .error error := by
          rw [bindTerm, stops]
          rfl
        rw [edited, bound]
        rfl
    | none =>
        cases step with
        | union operator operand =>
            rw [edit, unite, stops]
            rfl
        | join _ _ | distinct | fetchFirst _ | offset _ | isolation _ | lock _ => exact failed
        | on _ | extend _ _ | select _ _ | comma _ _ | filter _ | groupBy _ | having _
        | orderBy _ _ | thenBy _ _ => cases takes

theorem fine_of_apply {step : Step} (fine : (select.apply step).failure = none) :
    select.failure = none := by
  cases failed : select.failure with
  | none => rfl
  | some error => rw [failure_apply_of_some failed] at fine; cases fine

/-- A step that ends without a failure has written the bound expression of its term. -/
theorem writes_of_fine {step : Step} {term : Term} {stage : Stage}
    (allowed : step.next? select.stage = some stage) (takes : step.term? = some term)
    (fine : (select.apply step).failure = none) :
    ∃ expr, select.bindTerm term = .ok expr ∧
      step.write select.query select.stage expr = .ok (select.apply step).query := by
  obtain ⟨_, edited⟩ := edit_of_term allowed takes
  rw [apply_of_next? allowed, edited] at fine ⊢
  cases made : select.bindTerm term >>= step.write select.query select.stage with
  | error _ =>
      simp only [failure_amend, made] at fine
      cases fine
  | ok changed => exact except_bind_ok.mp made

/-- What a step makes of the query of a statement. -/
inductive Changes (select : Select) : Step → Query → Prop where
  /-- No source, expression or operand comes or goes. -/
  | keeps (step : Step) {changed : Query} :
      changed.source = select.query.source → changed.joins = select.query.joins →
      changed.operands = select.query.operands → changed.exprs = select.query.exprs →
      Changes select step changed
  | joins (kind : JoinKind) (source : Source) :
      Changes select (.join kind source)
        { select.query with joins := select.query.joins ++ [⟨kind, source, none⟩] }
  | unites (operator : SetOperator) {operand : Select} {nested : Query} :
      operand.result = .ok nested →
      Changes select (.union operator operand)
        { select.query with operands := select.query.operands ++ [⟨operator, nested⟩] }
  | writes {step : Step} {term : Term} {expr : Expr} {changed : Query} :
      step.term? = some term → select.bindTerm term = .ok expr →
      step.write select.query select.stage expr = .ok changed → Changes select step changed

theorem Changes.same (step : Step) : select.Changes step select.query :=
  .keeps step rfl rfl rfl rfl

theorem apply_changes (select : Select) (step : Step) :
    select.Changes step (select.apply step).query := by
  rw [apply]
  split
  case h_2 => exact .same step
  case h_1 stage allowed =>
    cases takes : step.term? with
    | some term =>
        rcases edit_of_term allowed takes with ⟨_, edited⟩
        rw [edited]
        cases made : select.bindTerm term >>= step.write select.query select.stage with
        | error _ => exact .same step
        | ok changed =>
            rcases except_bind_ok.mp made with ⟨expr, binds, writes⟩
            exact .writes takes binds writes
    | none =>
        cases step with
        | join kind source => exact .joins kind source
        | union operator operand =>
            simp only [edit, unite]
            cases made : (do
              select.proceed
              let query ← operand.result
              return { select.query with
                operands := select.query.operands ++ [⟨operator, query⟩] } :
              Except QueryError Query) with
            | error _ => exact .same _
            | ok changed =>
                simp only [except_bind_ok, except_pure_ok] at made
                rcases made with ⟨_, _, nested, finished, rfl⟩
                exact .unites operator finished
        | distinct | fetchFirst _ | offset _ | isolation _ | lock _ =>
            exact .keeps _ rfl rfl rfl rfl
        | on _ | extend _ _ | select _ _ | comma _ _ | filter _ | groupBy _ | having _
        | orderBy _ _ | thenBy _ _ => cases takes

/-! ## What a step keeps -/

/-- A statement goes on reading from the source that it starts at. -/
theorem source_apply (step : Step) : (select.apply step).query.source = select.query.source := by
  generalize changed : (select.apply step).query = query
  cases changed ▸ select.apply_changes step with
  | keeps _ source _ _ _ => exact source
  | joins _ _ | unites _ _ => rfl
  | writes _ _ writes =>
      have sources := (Step.rewrites_of_write writes).sources
      exact (List.cons.inj sources).1

theorem database_apply (step : Step) :
    (select.apply step).scope.database = select.scope.database := by
  cases allowed : step.next? select.stage with
  | none => rw [apply, allowed]
  | some _ =>
      simp only [apply_of_next? allowed, scope_edit]
      cases step <;> rfl

/-- Only a join brings a source. -/
theorem mem_sources_apply {step : Step} {source : Source}
    (member : source ∈ (select.apply step).query.sources) :
    source ∈ select.query.sources ∨ ∃ kind, step = .join kind source := by
  generalize changed : (select.apply step).query = query at member
  cases changed ▸ select.apply_changes step with
  | keeps _ first joins _ _ =>
      rw [Query.sources, first, joins] at member
      exact .inl member
  | joins kind joined =>
      simp only [Query.sources, List.map_append, List.map_cons, List.map_nil] at member
      rw [← List.cons_append, List.mem_append, List.mem_singleton] at member
      rcases member with old | rfl
      · exact .inl old
      · exact .inr ⟨kind, rfl⟩
  | unites _ _ => exact .inl member
  | writes _ _ writes =>
      rw [(Step.rewrites_of_write writes).sources] at member
      exact .inl member

/-- Only a join, and the condition of one, changes the joins. -/
theorem joins_apply {step : Step} {stage : Stage} (allowed : step.next? select.stage = some stage)
    (outside : stage ≠ .joining ∧ stage ≠ .awaitingOn ∧ stage ≠ .inOn) :
    (select.apply step).query.joins = select.query.joins := by
  generalize changed : (select.apply step).query = query
  cases changed ▸ select.apply_changes step with
  | keeps _ _ joins _ _ => exact joins
  | joins kind source => cases kind <;> simp_all [Step.next?]
  | unites _ _ => rfl
  | writes _ _ writes => exact Step.joins_write writes allowed outside.2.2

/-- Only a union brings an operand. -/
theorem mem_operands_apply {step : Step} {operand : Operand}
    (member : operand ∈ (select.apply step).query.operands) :
    operand ∈ select.query.operands ∨
      ∃ other, step = .union operand.operator other ∧ other.result = .ok operand.query := by
  generalize changed : (select.apply step).query = query at member
  cases changed ▸ select.apply_changes step with
  | keeps _ _ _ operands _ =>
      rw [operands] at member
      exact .inl member
  | joins _ _ => exact .inl member
  | unites operator finished =>
      rcases List.mem_append.mp member with old | new
      · exact .inl old
      · cases List.mem_singleton.mp new
        exact .inr ⟨_, rfl, finished⟩
  | writes _ _ writes =>
      rw [(Step.rewrites_of_write writes).operands] at member
      exact .inl member

/-- What holds of the expressions so far, and of the one that a step binds, holds of all
expressions behind the step, if a connective keeps it. -/
theorem forall_exprs_apply {holds : Expr → Prop} {step : Step}
    (old : ∀ expr ∈ select.query.exprs, holds expr)
    (bound : ∀ term expr, step.term? = some term → select.bindTerm term = .ok expr → holds expr)
    (joined : ∀ (connective : Connective) (left right : Expr), holds left → holds right →
      holds (.binary connective.operator left right)) :
    ∀ expr ∈ (select.apply step).query.exprs, holds expr := by
  intro expr member
  generalize changed : (select.apply step).query = query at member
  cases changed ▸ select.apply_changes step with
  | keeps _ _ _ _ exprs =>
      rw [exprs] at member
      exact old expr member
  | joins kind source =>
      have known : expr ∈ select.query.exprs := by
        simpa [Query.mem_exprs, or_and_right, exists_or] using member
      exact old expr known
  | unites _ _ => exact old expr member
  | writes takes binds writes =>
      have new := bound _ _ takes binds
      exact (Step.rewrites_of_write writes).forall_exprs old new
        (fun connective left leftHolds => joined connective left _ leftHolds new) expr member

end Select

end SqlSelect
