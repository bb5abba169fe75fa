import SqlSelect.Term

/-!
# Building statements step by step

A statement is built from its first source by steps, each of which writes one part
of a clause.  A step is allowed only behind certain clauses; one that is not leaves
the statement as it is.  A term is bound to the aliases in sight when its step is
taken, and the first step that fails decides the error of the statement.
-/

namespace SqlSelect

/-- One step in the building of a statement. -/
inductive Step where
  | join (kind : JoinKind) (source : Source)
  /-- The condition of the join before it. -/
  | on (condition : Term)
  /-- More of the condition that was written last. -/
  | extend (connective : Connective) (condition : Term)
  | select (term : Term) (label : Option String)
  /-- One more entry of the SELECT or GROUP BY list. -/
  | comma (term : Term) (label : Option String)
  | distinct
  | filter (condition : Term)
  | groupBy (term : Term)
  | having (condition : Term)
  | orderBy (term : Term) (descending : Bool)
  | thenBy (term : Term) (descending : Bool)
  | union (operator : SetOperator) (operand : Select)
  | fetchFirst (count : Nat)
  | offset (count : Nat)
  | isolation (level : IsolationLevel)
  | lock (level : LockLevel)

/-- The stage that a step leads to, where it is allowed. -/
def Step.next? : Step → Stage → Option Stage
  | .join .cross _, stage => if stage.mayJoin then some .joining else none
  | .join _ _, stage => if stage.mayJoin then some .awaitingOn else none
  | .on _, stage => if stage = .awaitingOn then some .inOn else none
  | .extend _ _, stage => if stage.clause?.isSome then some stage else none
  | .select _ _, stage => if stage.mayJoin then some .inProjection else none
  | .comma _ label, stage =>
    if stage = .inProjection ∨ stage = .inGroupBy ∧ label = none then some stage else none
  | .distinct, stage => if stage = .inProjection then some stage else none
  | .filter _, stage => if stage.mayFilter then some .inFilter else none
  | .groupBy _, stage => if stage.mayGroup then some .inGroupBy else none
  | .having _, stage => if stage = .inGroupBy then some .inHaving else none
  | .orderBy _ _, stage => if stage.mayOrder then some .inOrderBy else none
  | .thenBy _ _, stage => if stage = .inOrderBy then some stage else none
  | .union _ operand, stage =>
    if stage.mayUnite && operand.stage.mayOrder then some .inUnion else none
  | .fetchFirst _, stage => if stage.isComplete then some .ended else none
  | .offset _, stage => if stage.isComplete then some .ended else none
  | .isolation _, stage => if stage.isComplete then some .ended else none
  | .lock _, stage => if stage.isComplete then some .ended else none

/-- What a statement's rows hold after a join.  A row of an outer join may lack the
part of either side, and lacks it as a whole. -/
def JoinKind.extendShape (kind : JoinKind) (shape : Shape) (joined : RowType) : Shape :=
  match kind with
  | .inner | .cross => shape ++ [joined]
  | .left => shape ++ [.optional joined]
  | .right => shape.nullable ++ [joined]
  | .full => shape.nullable ++ [.optional joined]

namespace Query

/-- A condition behind one that may be there already. -/
def extendCondition (existing : Option Expr) (connective : Connective) (condition : Expr) :
    Expr :=
  match existing with
  | some left => .binary connective.operator left condition
  | none => condition

/-- Change the condition of the last join. -/
def mapLastOn (query : Query) (change : Option Expr → Expr) : Query :=
  match query.joins.getLast? with
  | some join =>
    { query with joins := query.joins.dropLast ++ [{ join with on := some (change join.on) }] }
  | none => query

/-- Give the last join its condition, which must mention the alias it joins. -/
def joinOn (query : Query) (condition : Expr) : Except QueryError Query :=
  match query.joins.getLast? with
  | some join =>
    if condition.references join.source.alias then .ok (query.mapLastOn fun _ => condition)
    else .error (.invalidJoin join.source.alias)
  | none => .ok query

/-- Extend the condition of a clause. -/
def extendClause (query : Query) (connective : Connective) (condition : Expr) :
    Clause → Query
  | .on => query.mapLastOn fun existing => extendCondition existing connective condition
  | .filter => { query with filter := some (extendCondition query.filter connective condition) }
  | .having => { query with having := some (extendCondition query.having connective condition) }

end Query

namespace Select

/-- The expression of a term, bound to the aliases in sight. -/
def bindTerm (select : Select) (term : Term) : Except QueryError Expr := do
  select.proceed
  let expr ← term.assemble
  expr.bind select.scope

/-- Join a source, which is in sight from there on. -/
def join (select : Select) (kind : JoinKind) (source : Source) : Select :=
  { select with
    query := { select.query with joins := select.query.joins ++ [⟨kind, source, none⟩] }
    scope := select.scope.plus source.alias
    shape := kind.extendShape select.shape (.record source.alias.table) }

/-- Add an entry to the SELECT list. -/
def project (select : Select) (term : Term) (label : Option String) : Select :=
  select.amend do
    let expr ← select.bindTerm term
    return { select.query with projection := select.query.projection ++ [⟨expr, label⟩] }

/-- Add an entry to the GROUP BY list. -/
def group (select : Select) (term : Term) : Select :=
  select.amend do
    let expr ← select.bindTerm term
    return { select.query with groupBy := select.query.groupBy ++ [expr] }

/-- Add an entry to the ORDER BY list. -/
def order (select : Select) (term : Term) (descending : Bool) : Select :=
  select.amend do
    let expr ← select.bindTerm term
    return { select.query with orderBy := select.query.orderBy ++ [⟨expr, descending⟩] }

/-- Combine the statement with another.  An error of the other becomes its own. -/
def unite (select : Select) (operator : SetOperator) (operand : Select) : Select :=
  select.amend do
    select.proceed
    let query ← operand.result
    return { select.query with operands := select.query.operands ++ [⟨operator, query⟩] }

/-- What a step does to a statement, apart from its stage. -/
def edit (select : Select) : Step → Select
  | .join kind source => select.join kind source
  | .on condition => select.amend do select.query.joinOn (← select.bindTerm condition)
  | .extend connective condition =>
    match select.stage.clause? with
    | some clause =>
      select.amend do
        return select.query.extendClause connective (← select.bindTerm condition) clause
    | none => select
  | .select term label => { select.project term label with shape := [term.type] }
  | .comma term label =>
    if select.stage = .inProjection then
      { select.project term label with shape := select.shape ++ [term.type] }
    else select.group term
  | .distinct => { select with query := { select.query with distinct := true } }
  | .filter condition =>
    select.amend do return { select.query with filter := some (← select.bindTerm condition) }
  | .groupBy term => select.group term
  | .having condition =>
    select.amend do return { select.query with having := some (← select.bindTerm condition) }
  | .orderBy term descending => select.order term descending
  | .thenBy term descending => select.order term descending
  | .union operator operand => select.unite operator operand
  | .fetchFirst count =>
    { select with query := { select.query with fetchFirst := some count } }
  | .offset count => { select with query := { select.query with offset := some count } }
  | .isolation level => { select with query := { select.query with isolation := some level } }
  | .lock level => { select with query := { select.query with lock := some level } }

/-- Take a step, if the statement has come to a point where it is allowed. -/
def apply (select : Select) (step : Step) : Select :=
  match step.next? select.stage with
  | some stage => { select.edit step with stage }
  | none => select

/-- Take some steps in order. -/
def run (select : Select) (steps : List Step) : Select :=
  steps.foldl apply select

@[simp] theorem run_nil (select : Select) : select.run [] = select := rfl

@[simp] theorem run_cons (select : Select) (step : Step) (steps : List Step) :
    select.run (step :: steps) = (select.apply step).run steps := rfl

theorem run_append (select : Select) (first second : List Step) :
    select.run (first ++ second) = (select.run first).run second :=
  List.foldl_append

end Select

end SqlSelect
