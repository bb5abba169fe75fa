import SqlSelect.Proofs.Building.Change
import SqlSelect.Proofs.Building.Leftmost

/-!
# The first error wins

Each step may fail on its own, against the aliases in sight where it is taken.  A statement
records the first of these errors and keeps it: nothing that follows replaces it, it is all
there is to be had from the statement, and it passes on to any statement that takes this one.
-/

namespace SqlSelect

/-- The expression of a term in a scope: assembled first, then bound. -/
def Term.bound (scope : Scope) (term : Term) : Except QueryError Expr := do
  let expr ← term.assemble
  expr.bind scope

namespace Step

/-- The error that a step records on its own.  A condition that opens that of a join must
mention the alias joined last. -/
def error? (scope : Scope) : Step → Option QueryError
  | .on condition =>
    match condition.bound scope, scope.nearest.getLast? with
    | .error error, _ => some error
    | .ok expr, some joined => if expr.references joined then none else some (.invalidJoin joined)
    | .ok _, none => none
  | .extend _ term | .select term _ | .comma term _ | .filter term | .groupBy term
  | .having term | .orderBy term _ | .thenBy term _ =>
    match term.bound scope with
    | .error error => some error
    | .ok _ => none
  | .union _ operand => operand.failure
  | .join .. | .distinct | .fetchFirst _ | .offset _ | .isolation _ | .lock _ => none

/-- The errors that some steps record, each on its own and in the scope that those before it
leave. -/
def errors (scope : Scope) : List Step → List QueryError
  | [] => []
  | step :: rest => (step.error? scope).toList ++ errors (step.widen scope) rest

/-- Each step is allowed at the stage that those before it lead to. -/
inductive Legal : Stage → List Step → Prop where
  | nil {stage : Stage} : Legal stage []
  | cons {stage next : Stage} {step : Step} {rest : List Step} :
      step.next? stage = some next → Legal next rest → Legal stage (step :: rest)

theorem errors_append (scope : Scope) (first second : List Step) :
    errors scope (first ++ second) =
      errors scope first ++ errors (first.foldl widen scope) second := by
  induction first generalizing scope with
  | nil => rfl
  | cons step rest ih =>
      rw [List.cons_append, errors, ih, errors, List.foldl_cons, List.append_assoc]

theorem Legal.left {stage : Stage} {first second : List Step}
    (legal : Legal stage (first ++ second)) : Legal stage first := by
  induction first generalizing stage with
  | nil => exact .nil
  | cons step rest ih =>
      cases legal with
      | cons allowed legal => exact .cons allowed (ih legal)

end Step

/-! ## Errors on their way to another statement -/

/-- A statement stands in a term where its error is the first to be met: all that is
assembled ahead of it can be. -/
inductive Term.MeetsFirst (inner : Select) : Term → Prop where
  | subquery : MeetsFirst inner (.subquery inner)
  | exists (negated : Bool) : MeetsFirst inner (.exists negated inner)
  | inSelect (negated : Bool) {operand : Term} {expr : Expr} :
      operand.assemble = .ok expr → MeetsFirst inner (.inSelect negated operand inner)
  | within {term part : Term} {before after : List Term} :
      term.parts = before ++ part :: after →
      (∀ earlier ∈ before, ∃ expr, earlier.assemble = .ok expr) →
      MeetsFirst inner part → MeetsFirst inner term

/-- A step takes a statement as a sub-query or as an operand, and can fail at nothing ahead
of it. -/
def Step.Takes (inner : Select) (step : Step) : Prop :=
  (∃ operator, step = .union operator inner) ∨
    ∃ term, step.term? = some term ∧ term.MeetsFirst inner

/-- Nothing but an error is to be had from a statement. -/
structure Select.Refuses (select : Select) (error : QueryError) : Prop where
  failure : select.failure = some error
  prepare : select.prepare = .error error
  text : select.text = .error error
  arguments : select.arguments = .error error
  derived : ∀ handle, Source.ofDerived handle select = .error error
  common : ∀ handle, Source.ofCommon handle select = .error error
  /-- A statement without an error of its own ends with this one, whatever it does after it
  takes the statement. -/
  outer : ∀ (outer : Select) (step : Step) (stage : Stage) (more : List Step),
    outer.failure = none → step.next? outer.stage = some stage → step.Takes select →
      ((outer.apply step).run more).failure = some error

variable {select : Select} {error : QueryError}

theorem Select.result_of_failure (failed : select.failure = some error) :
    select.result = .error error := by
  rw [result, proceed, failed]
  rfl

theorem Term.MeetsFirst.assemble {inner : Select} {term : Term} (meets : term.MeetsFirst inner)
    (failed : inner.failure = some error) : term.assemble = .error error := by
  have fails := inner.result_of_failure failed
  induction meets with
  | subquery | «exists» _ =>
      rw [Term.assemble, fails]
      rfl
  | inSelect _ assembles =>
      rw [Term.assemble, assembles, fails]
      rfl
  | within parts fine _ ih =>
      apply assemble_error_of_parts
      rw [parts]
      exact mapM_error_of_first fine ih

/-! ## One step -/

namespace Select

/-- The alias joined last is the one in sight last, where its condition is awaited. -/
def Awaits (select : Select) : Prop :=
  select.stage = .awaitingOn → ∃ join, select.query.joins.getLast? = some join ∧
    select.scope.nearest.getLast? = some join.source.alias

theorem awaits_apply (awaits : select.Awaits) (step : Step) : (select.apply step).Awaits := by
  cases allowed : step.next? select.stage with
  | none =>
      rw [apply, allowed]
      exact awaits
  | some stage =>
      rw [apply_of_next? allowed]
      rintro rfl
      obtain ⟨kind, source, rfl, _, _⟩ := Step.next?_eq_awaitingOn.mp allowed
      exact ⟨⟨kind, source, none⟩, List.getLast?_concat, List.getLast?_concat⟩

theorem bindTerm_of_fine (fine : select.failure = none) (term : Term) :
    select.bindTerm term = term.bound select.scope := by
  rw [bindTerm, proceed, fine]
  rfl

/-- A step with a term fails where the term is not bound, or else not written. -/
theorem failure_apply_of_term (fine : select.failure = none) {step : Step} {term : Term}
    {stage : Stage} (allowed : step.next? select.stage = some stage)
    (takes : step.term? = some term) :
    (select.apply step).failure =
      match term.bound select.scope >>= step.write select.query select.stage with
      | .ok _ => none
      | .error error => some error := by
  obtain ⟨_, edited⟩ := edit_of_term allowed takes
  rw [apply_of_next? allowed, edited, ← bindTerm_of_fine fine, ← fine]
  exact failure_amend _

/-- The condition of a join fails on its own account if it does not mention what is joined. -/
theorem failure_apply_on (fine : select.failure = none) (awaits : select.Awaits)
    {condition : Term} {stage : Stage}
    (allowed : (Step.on condition).next? select.stage = some stage) :
    (select.apply (.on condition)).failure = (Step.on condition).error? select.scope := by
  rw [failure_apply_of_term fine allowed rfl, Step.error?]
  cases condition.bound select.scope with
  | error _ => rfl
  | ok expr =>
      have awaiting : select.stage = .awaitingOn := by
        simp only [Step.next?, Option.ite_none_right_eq_some] at allowed
        exact allowed.1
      obtain ⟨join, last, nearest⟩ := awaits awaiting
      by_cases references : expr.references join.source.alias = true <;>
        simp [nearest, bind, Except.bind, Step.write, Query.joinOn, last, references]

theorem failure_apply_union (fine : select.failure = none) {operator : SetOperator}
    {operand : Select} {stage : Stage}
    (allowed : (Step.union operator operand).next? select.stage = some stage) :
    (select.apply (.union operator operand)).failure = operand.failure := by
  rw [apply_of_next? allowed]
  simp only [edit, unite, failure_amend, result, proceed, fine]
  cases operand.failure <;> rfl

/-- A step records its own error, unless an error is recorded already. -/
theorem failure_apply (awaits : select.Awaits) {step : Step} {stage : Stage}
    (allowed : step.next? select.stage = some stage) :
    (select.apply step).failure = select.failure.or (step.error? select.scope) := by
  cases fine : select.failure with
  | some error => rw [failure_apply_of_some fine, Option.some_or]
  | none =>
      rw [Option.none_or]
      cases step with
      | on condition => exact failure_apply_on fine awaits allowed
      | union operator operand => exact failure_apply_union fine allowed
      | extend _ term =>
          rw [failure_apply_of_term fine allowed rfl, Step.error?]
          simp only [bind, Except.bind, Step.write]
          cases term.bound select.scope <;> cases select.stage.clause? <;> rfl
      | comma term _ =>
          rw [failure_apply_of_term fine allowed rfl, Step.error?]
          simp only [bind, Except.bind, Step.write]
          by_cases projecting : select.stage = .inProjection <;>
            cases term.bound select.scope <;> simp [projecting]
      | select term _ | filter term | groupBy term | having term | orderBy term _
      | thenBy term _ =>
          rw [failure_apply_of_term fine allowed rfl, Step.error?]
          cases term.bound select.scope <;> rfl
      | join _ _ | distinct | fetchFirst _ | offset _ | isolation _ | lock _ =>
          rw [apply_of_next? allowed]
          exact fine

/-- The error of a statement is that of the step that takes it. -/
theorem failure_apply_of_takes (fine : select.failure = none) {step : Step} {stage : Stage}
    (allowed : step.next? select.stage = some stage) {inner : Select}
    (failed : inner.failure = some error) (takes : step.Takes inner) :
    (select.apply step).failure = some error := by
  rcases takes with ⟨operator, rfl⟩ | ⟨term, binds, meets⟩
  · rw [failure_apply_union fine allowed, failed]
  · rw [failure_apply_of_term fine allowed binds, Term.bound, meets.assemble failed]
    rfl

/-! ## Several steps -/

theorem failure_run_of_some (failed : select.failure = some error) (steps : List Step) :
    (select.run steps).failure = some error := by
  induction steps generalizing select with
  | nil => exact failed
  | cons step rest ih => exact ih (failure_apply_of_some failed step)

/-- Legal steps record the first of their errors, unless one is recorded already. -/
theorem failure_run (awaits : select.Awaits) {steps : List Step}
    (legal : Step.Legal select.stage steps) :
    (select.run steps).failure = select.failure.or (Step.errors select.scope steps).head? := by
  induction steps generalizing select with
  | nil => rw [run_nil, Step.errors, List.head?_nil, Option.or_none]
  | cons step rest ih =>
      cases legal with
      | cons allowed legal =>
          have reached : Step.Legal (select.apply step).stage rest := by
            rw [apply_of_next? allowed]
            exact legal
          rw [run_cons, ih (awaits_apply awaits step) reached, failure_apply awaits allowed,
            scope_apply allowed, Step.errors, List.head?_append, Option.or_assoc]
          cases step.error? select.scope <;> rfl

theorem failure_run_start (scope : Scope) (source : Source) {steps : List Step}
    (legal : Step.Legal .joining steps) :
    ((start scope source).run steps).failure =
      (Step.errors (scope.plus source.alias) steps).head? := by
  have awaits : (start scope source).Awaits := nofun
  exact failure_run awaits legal

/-- A statement with an error gives nothing else, and hands the error on. -/
theorem refuses_of_failure (failed : select.failure = some error) : select.Refuses error := by
  have fails := result_of_failure failed
  have prepare : select.prepare = .error error := by
    rw [Select.prepare, fails]
    rfl
  constructor
  · exact failed
  · exact prepare
  · rw [text, prepare]
    rfl
  · rw [arguments, prepare]
    rfl
  · intro handle
    rw [Source.ofDerived, fails]
    rfl
  · intro handle
    rw [Source.ofCommon, fails]
    rfl
  · intro outer step stage more fine allowed takes
    apply failure_run_of_some
    exact failure_apply_of_takes fine allowed failed takes

/-- The error of a statement is the first one of its steps.  From there on it is all the
statement gives, whatever the other steps are. -/
theorem first_error_kept (scope : Scope) (source : Source) {steps : List Step}
    (legal : Step.Legal .joining steps) :
    ((start scope source).run steps).failure =
        (Step.errors (scope.plus source.alias) steps).head? ∧
      (∀ error, ((start scope source).run steps).failure = some error →
        ∀ more, (((start scope source).run steps).run more).Refuses error) ∧
      ∀ before failing after error, steps = before ++ failing :: after →
        Step.errors (scope.plus source.alias) before = [] →
        failing.error? (before.foldl Step.widen (scope.plus source.alias)) = some error →
        ∀ others, ((start scope source).run (before ++ failing :: others)).failure = some error := by
  refine ⟨failure_run_start scope source legal, ?_, ?_⟩
  · intro error failed more
    exact refuses_of_failure (failure_run_of_some failed more)
  · rintro before failing after error rfl fine fails others
    rw [List.append_cons] at legal
    have ends : ((start scope source).run (before ++ [failing])).failure = some error := by
      rw [failure_run_start scope source legal.left, Step.errors_append, fine]
      simp [Step.errors, fails]
    rw [List.append_cons, run_append]
    exact failure_run_of_some ends others

end Select

/-! ## The error that a term carries -/

/-- A term carries the first of its errors, and hands it on to the statement that takes it. -/
structure Term.CarriesFirst (term : Term) : Prop where
  /-- It stands for an expression if nothing in it fails, and only then. -/
  fine : (∃ expr, term.assemble = .ok expr) ↔ term.errors = []
  /-- Otherwise it carries the error of what fails first. -/
  first : ∀ error, term.assemble = .error error ↔ term.errors.head? = some error
  /-- A statement that takes it records that error, whether its columns resolve or not. -/
  recorded : ∀ (select : Select) (step : Step) (stage : Stage) (error : QueryError),
    select.failure = none → step.next? select.stage = some stage → step.term? = some term →
      term.errors.head? = some error → (select.apply step).failure = some error

theorem Term.carries_first (term : Term) : term.CarriesFirst := by
  have reports := term.assemble_reports
  constructor
  · exact reports.exists_ok_iff
  · exact fun _ => reports.error_iff
  · intro select step stage error fine allowed takes first
    have fails : term.bound select.scope = .error error := by
      rw [Term.bound, reports.error_iff.mpr first]
      rfl
    rw [Select.failure_apply_of_term fine allowed takes, fails]
    rfl

/-- The condition of a branch is ahead of its result. -/
example :
    (Term.case ⟨.inList false (.column Sample.person Sample.key .any) [],
      .inList true .countAll []⟩ [] none).assemble = .error (.emptyInList "PERSON.KEY") := by
  rfl

/-! ## A statement with two errors -/

namespace Sample

/-- Both conditions are wrong: the list is empty, and nobody in sight is named so. -/
def mistakes : List Step :=
  [.filter (.inList false (.column person key .any) []),
    .extend .or (.isNull false (.column person key (.named "q")))]

theorem mistakes_kept :
    Step.Legal .joining mistakes ∧
      Step.errors everyone.scope mistakes =
        [.emptyInList "PERSON.KEY", .unresolvedReference (person.info key) [parent]] ∧
      (everyone.run mistakes).failure = some (.emptyInList "PERSON.KEY") ∧
      ∀ more, ((everyone.run mistakes).run more).Refuses (.emptyInList "PERSON.KEY") := by
  have legal : Step.Legal .joining mistakes := .cons rfl (.cons rfl .nil)
  obtain ⟨first, kept, _⟩ :=
    Select.first_error_kept (.empty ⟨.sqlite, none⟩) (.ofTable parent) legal
  have errors : Step.errors everyone.scope mistakes =
      [.emptyInList "PERSON.KEY", .unresolvedReference (person.info key) [parent]] := by rfl
  have failed : (everyone.run mistakes).failure = some (.emptyInList "PERSON.KEY") := by
    rw [← List.head?_cons, ← errors]
    exact first
  exact ⟨legal, errors, failed, kept _ failed⟩

end Sample

end SqlSelect
