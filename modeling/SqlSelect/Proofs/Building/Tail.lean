import SqlSelect.Proofs.Building.FirstError

/-!
# What stands behind the clauses of a query

Behind its own clauses a query has a tail: the queries combined with it, an order, and
options.  The stage of a statement tells which of these its query may have.  A query that is
combined with others is not ordered, and one that becomes an operand has no tail at all.
-/

namespace SqlSelect

/-- The queries combined with a query, and what applies to the rows of all of them. -/
structure Tail where
  operands : List Operand
  orderBy : List (OrderItem Expr)
  fetchFirst : Option Nat
  offset : Option Nat
  isolation : Option IsolationLevel
  lock : Option LockLevel

/-- Nothing behind the clauses of a query. -/
def Tail.empty : Tail :=
  { operands := [], orderBy := [], fetchFirst := none, offset := none, isolation := none
    lock := none }

/-- The tail of a query. -/
def Query.tail (query : Query) : Tail :=
  { operands := query.operands, orderBy := query.orderBy, fetchFirst := query.fetchFirst
    offset := query.offset, isolation := query.isolation, lock := query.lock }

/-- The query that a step combines with those before it. -/
def Step.operand? : Step → Option Operand
  | .union operator operand => some ⟨operator, operand.query⟩
  | _ => none

namespace Stage

/-- Neither an order nor a union nor an option has been written. -/
def isAhead : Stage → Bool
  | .inOrderBy | .inUnion | .ended => false
  | _ => true

/-- The tail that a statement may have written when it has come to a stage. -/
def Trails (tail : Tail) : Stage → Prop
  | .inOrderBy => ∃ orderBy, tail = { Tail.empty with orderBy }
  | .inUnion => ∃ operands, tail = { Tail.empty with operands }
  | .ended => tail.operands = [] ∨ tail.orderBy = []
  | _ => tail = .empty

variable {stage : Stage} {tail : Tail}

theorem isAhead_of_mayOrder (open? : stage.mayOrder = true) : stage.isAhead = true := by
  cases stage <;> first | rfl | cases open?

theorem isAhead_of_mayUnite (open? : stage.mayUnite = true) :
    stage.isAhead = true ∨ stage = .inUnion := by
  simp only [mayUnite, Bool.or_eq_true, beq_iff_eq] at open?
  exact open?.imp_left isAhead_of_mayOrder

theorem trails_of_isAhead (ahead : stage.isAhead = true) : stage.Trails tail ↔ tail = .empty := by
  cases stage <;> first | rfl | cases ahead

/-- Nothing that is combined is ordered. -/
theorem Trails.apart (trails : stage.Trails tail) : tail.operands = [] ∨ tail.orderBy = [] := by
  cases stage with
  | ended => exact trails
  | inOrderBy =>
      obtain ⟨_, rfl⟩ := trails
      exact .inl rfl
  | inUnion =>
      obtain ⟨_, rfl⟩ := trails
      exact .inr rfl
  | _ => exact .inl (congrArg Tail.operands trails)

end Stage

namespace Step

/-- A step writes one of the clauses ahead of the tail. -/
def isInner : Step → Bool
  | .orderBy .. | .thenBy .. | .union .. | .fetchFirst _ | .offset _ | .isolation _ | .lock _ =>
    false
  | _ => true

/-- Such a step goes on with a clause, or stands ahead of all that a tail holds. -/
theorem next?_of_isInner {step : Step} {stage next : Stage} (inner : step.isInner = true)
    (allowed : step.next? stage = some next) :
    next = stage ∨ stage.isAhead = true ∧ next.isAhead = true := by
  have joins (open? : stage.mayJoin = true) : stage.isAhead = true := by
    cases stage <;> first | rfl | cases open?
  cases step with
  | orderBy _ _ | thenBy _ _ | union _ _ | fetchFirst _ | offset _ | isolation _ | lock _ =>
      cases inner
  | extend _ _ | comma _ _ | distinct =>
      simp only [next?, Option.ite_none_right_eq_some, Option.some.injEq] at allowed
      exact .inl allowed.2.symm
  | join kind _ =>
      cases kind <;>
        simp only [next?, Option.ite_none_right_eq_some, Option.some.injEq] at allowed <;>
        obtain ⟨open?, rfl⟩ := allowed <;>
        exact .inr ⟨joins open?, rfl⟩
  | select _ _ =>
      simp only [next?, Option.ite_none_right_eq_some, Option.some.injEq] at allowed
      obtain ⟨open?, rfl⟩ := allowed
      exact .inr ⟨joins open?, rfl⟩
  | on _ | having _ =>
      simp only [next?, Option.ite_none_right_eq_some, Option.some.injEq] at allowed
      obtain ⟨rfl, rfl⟩ := allowed
      exact .inr ⟨rfl, rfl⟩
  | filter _ | groupBy _ =>
      simp only [next?, Option.ite_none_right_eq_some, Option.some.injEq] at allowed
      obtain ⟨open?, rfl⟩ := allowed
      refine .inr ⟨?_, rfl⟩
      cases stage <;> first | rfl | cases open?

end Step

theorem Query.tail_mapLastOn (query : Query) (change : Option Expr → Expr) :
    (query.mapLastOn change).tail = query.tail := by
  rw [mapLastOn]
  split <;> rfl

namespace Select

variable {select : Select}

/-- A query that is made from another one with the same tail keeps it. -/
theorem tail_amend {result : Except QueryError Query}
    (same : ∀ query, result = .ok query → query.tail = select.query.tail) :
    (select.amend result).query.tail = select.query.tail := by
  cases result with
  | error _ => rfl
  | ok query => exact same query rfl

theorem tail_edit {step : Step} (inner : step.isInner = true) :
    (select.edit step).query.tail = select.query.tail := by
  cases step with
  | orderBy _ _ | thenBy _ _ | union _ _ | fetchFirst _ | offset _ | isolation _ | lock _ =>
      cases inner
  | join _ _ | distinct => rfl
  | on condition =>
      apply tail_amend
      intro query made
      obtain ⟨expr, _, made⟩ := except_bind_ok.mp made
      rw [Query.joinOn] at made
      split at made
      · split at made <;> cases made
        exact select.query.tail_mapLastOn _
      · cases made
        rfl
  | extend connective condition =>
      rw [edit]
      split
      · rename_i clause _
        apply tail_amend
        intro query made
        obtain ⟨expr, _, ⟨⟩⟩ := except_bind_ok.mp made
        cases clause with
        | on => exact select.query.tail_mapLastOn _
        | filter | having => rfl
      · rfl
  | comma _ _ =>
      rw [edit]
      split <;>
      · apply tail_amend
        intro query made
        obtain ⟨_, _, ⟨⟩⟩ := except_bind_ok.mp made
        rfl
  | select _ _ | filter _ | groupBy _ | having _ =>
      apply tail_amend
      intro query made
      obtain ⟨_, _, ⟨⟩⟩ := except_bind_ok.mp made
      rfl

/-- An entry of the order leaves the rest of the tail. -/
theorem tail_order (select : Select) (term : Term) (descending : Bool) :
    ∃ orderBy, (select.order term descending).query.tail = { select.query.tail with orderBy } := by
  rw [order]
  cases select.bindTerm term <;> exact ⟨_, rfl⟩

/-- A union leaves the rest of the tail. -/
theorem tail_unite (select : Select) (operator : SetOperator) (operand : Select) :
    ∃ operands, (select.unite operator operand).query.tail =
      { select.query.tail with operands } := by
  rw [unite, proceed, result, proceed]
  cases select.failure <;> cases operand.failure <;> exact ⟨_, rfl⟩

/-- Every step leaves a tail that its stage allows. -/
theorem trails_apply (trails : select.stage.Trails select.query.tail) (step : Step) :
    (select.apply step).stage.Trails (select.apply step).query.tail := by
  cases allowed : step.next? select.stage with
  | none =>
      rw [apply, allowed]
      exact trails
  | some next =>
      rw [apply_of_next? allowed]
      change next.Trails (select.edit step).query.tail
      cases inner : step.isInner with
      | true =>
          rw [tail_edit inner]
          rcases Step.next?_of_isInner inner allowed with rfl | ⟨ahead, nextAhead⟩
          · exact trails
          · exact (Stage.trails_of_isAhead nextAhead).mpr
              ((Stage.trails_of_isAhead ahead).mp trails)
      | false =>
          cases step with
          | orderBy term descending =>
              simp only [Step.next?, Option.ite_none_right_eq_some, Option.some.injEq] at allowed
              obtain ⟨open?, rfl⟩ := allowed
              obtain ⟨orderBy, tail⟩ := select.tail_order term descending
              have empty := (Stage.trails_of_isAhead (Stage.isAhead_of_mayOrder open?)).mp trails
              exact ⟨orderBy, tail.trans (by rw [empty])⟩
          | thenBy term descending =>
              simp only [Step.next?, Option.ite_none_right_eq_some, Option.some.injEq] at allowed
              obtain ⟨within, rfl⟩ := allowed
              obtain ⟨orderBy, tail⟩ := select.tail_order term descending
              rw [within] at trails ⊢
              obtain ⟨_, earlier⟩ := trails
              exact ⟨orderBy, tail.trans (by rw [earlier])⟩
          | union operator operand =>
              simp only [Step.next?, Option.ite_none_right_eq_some, Option.some.injEq,
                Bool.and_eq_true] at allowed
              obtain ⟨⟨open?, _⟩, rfl⟩ := allowed
              obtain ⟨operands, tail⟩ := select.tail_unite operator operand
              rcases Stage.isAhead_of_mayUnite open? with ahead | within
              · have empty := (Stage.trails_of_isAhead ahead).mp trails
                exact ⟨operands, tail.trans (by rw [empty])⟩
              · rw [within] at trails
                obtain ⟨_, earlier⟩ := trails
                exact ⟨operands, tail.trans (by rw [earlier])⟩
          | fetchFirst _ | offset _ | isolation _ | lock _ =>
              simp only [Step.next?, Option.ite_none_right_eq_some, Option.some.injEq] at allowed
              obtain ⟨_, rfl⟩ := allowed
              exact trails.apart
          | join _ _ | on _ | extend _ _ | select _ _ | comma _ _ | distinct | filter _
          | groupBy _ | having _ => cases inner

theorem Built.trails {origin : Select → Prop} (built : select.Built origin) :
    select.stage.Trails select.query.tail := by
  induction built with
  | outermost _ _ | nested _ _ => rfl
  | step _ _ ih => exact trails_apply ih _

/-! ## Operands in order -/

/-- A union takes its operand, and no other step takes one. -/
theorem operands_apply {step : Step} {stage : Stage}
    (allowed : step.next? select.stage = some stage) (fine : (select.apply step).failure = none) :
    (select.apply step).query.operands = select.query.operands ++ step.operand?.toList := by
  cases takes : step.term? with
  | some term =>
      obtain ⟨expr, _, writes⟩ := writes_of_fine allowed takes fine
      have none : step.operand? = none := by
        cases step <;> first | rfl | cases takes
      rw [(Step.rewrites_of_write writes).operands, none]
      exact (List.append_nil _).symm
  | none =>
      have ahead := fine_of_apply fine
      cases step with
      | union operator operand =>
          rw [failure_apply_union ahead allowed] at fine
          rw [apply_of_next? allowed]
          simp only [edit, unite, proceed, result, ahead, fine]
          rfl
      | join _ _ | distinct | fetchFirst _ | offset _ | isolation _ | lock _ =>
          rw [apply_of_next? allowed]
          exact (List.append_nil _).symm
      | on _ | extend _ _ | select _ _ | comma _ _ | filter _ | groupBy _ | having _
      | orderBy _ _ | thenBy _ _ => cases takes

theorem fine_of_run {steps : List Step} (fine : (select.run steps).failure = none) :
    select.failure = none := by
  cases failed : select.failure with
  | none => rfl
  | some error => rw [failure_run_of_some failed] at fine; cases fine

/-- The operands stand in the order in which their unions were taken. -/
theorem operands_run {steps : List Step} (legal : Step.Legal select.stage steps)
    (fine : (select.run steps).failure = none) :
    (select.run steps).query.operands =
      select.query.operands ++ steps.filterMap Step.operand? := by
  induction steps generalizing select with
  | nil => exact (List.append_nil _).symm
  | cons step rest ih =>
      cases legal with
      | cons allowed legal =>
          have reached : Step.Legal (select.apply step).stage rest := by
            rw [apply_of_next? allowed]
            exact legal
          rw [run_cons] at fine ⊢
          rw [ih reached fine, operands_apply allowed (fine_of_run fine), List.append_assoc]
          cases taken : step.operand? with
          | none => rw [List.filterMap_cons_none taken]; rfl
          | some operand => rw [List.filterMap_cons_some taken]; rfl

end Select

end SqlSelect
