import SqlSelect.Proofs.Building.Assembly

/-!
# The leftmost error of a term

Two things in a term fail on their own: a list without items, and a statement that holds an
error.  However the term nests them, it fails with the first of their errors, from left to
right, and fails with nothing else.
-/

namespace SqlSelect

/-! ## All errors of a term -/

/-- A term in words, as its expression is. -/
def Term.describe : Term → String
  | .column table member hint => (ColumnReference.unresolved (table.info member) hint).describe
  | .nullable operand => operand.describe
  | _ => "expression"

mutual

/-- The errors of all that fails in a term, from left to right. -/
def Term.errors : Term → List QueryError
  | .column .. | .value _ | .literal _ | .optional .. | .countAll => []
  | .not operand | .negate operand | .nullable operand | .isNull _ operand
  | .cast operand _ _ => operand.errors
  | .binary _ left right => left.errors ++ right.errors
  | .between _ operand low high => operand.errors ++ (low.errors ++ high.errors)
  | .like _ operand pattern => operand.errors ++ pattern.errors
  | .inList _ operand items =>
    operand.errors ++ (Term.listErrors items ++
      if items.isEmpty then [.emptyInList operand.describe] else [])
  | .inSelect _ operand select => operand.errors ++ select.failure.toList
  | .exists _ select | .subquery select => select.failure.toList
  | .call _ _ arguments => Term.listErrors arguments
  | .window _ arguments partition order =>
    Term.listErrors arguments ++ (Term.listErrors partition ++ Term.orderErrors order)
  | .case ⟨condition, result⟩ rest otherwise =>
    condition.errors ++ (result.errors ++
      (Term.branchErrors rest ++ Term.optionErrors otherwise))

def Term.listErrors : List Term → List QueryError
  | [] => []
  | term :: rest => term.errors ++ Term.listErrors rest

def Term.orderErrors : List (OrderItem Term) → List QueryError
  | [] => []
  | ⟨term, _⟩ :: rest => term.errors ++ Term.orderErrors rest

def Term.branchErrors : List (Branch Term) → List QueryError
  | [] => []
  | ⟨condition, result⟩ :: rest =>
    condition.errors ++ (result.errors ++ Term.branchErrors rest)

def Term.optionErrors : Option Term → List QueryError
  | none => []
  | some term => term.errors

end

/-! ## Reporting the first of some errors -/

/-- An outcome is the first of some errors, or a value if there are none. -/
def Reports {α : Type} (outcome : Except QueryError α) (errors : List QueryError) : Prop :=
  match outcome with
  | .ok _ => errors = []
  | .error error => errors.head? = some error

namespace Reports

variable {α β : Type} {outcome : Except QueryError α} {errors more : List QueryError}

theorem ok (value : α) : Reports (.ok value) [] := rfl

theorem error (error : QueryError) : Reports (.error error : Except QueryError α) [error] := rfl

/-- Whatever is done next, the errors before it come first. -/
theorem bind {next : α → Except QueryError β} (first : Reports outcome errors)
    (second : ∀ value, outcome = .ok value → Reports (next value) more) :
    Reports (outcome >>= next) (errors ++ more) := by
  cases outcome with
  | error error =>
      change (errors ++ more).head? = some error
      rw [List.head?_append, first]
      rfl
  | ok value =>
      change Reports (next value) (errors ++ more)
      rw [first]
      exact second value rfl

theorem map (reports : Reports outcome errors) (make : α → β) :
    Reports (do return make (← outcome)) errors := by
  rw [← List.append_nil errors]
  exact reports.bind fun value _ => .ok (make value)

theorem exists_ok_iff (reports : Reports outcome errors) :
    (∃ value, outcome = .ok value) ↔ errors = [] := by
  cases outcome with
  | ok value => exact iff_of_true ⟨value, rfl⟩ reports
  | error error =>
      apply iff_of_false
      · exact fun ⟨_, impossible⟩ => by cases impossible
      · rintro rfl
        cases reports

theorem error_iff (reports : Reports outcome errors) {error : QueryError} :
    outcome = .error error ↔ errors.head? = some error := by
  cases outcome with
  | ok value =>
      change errors = [] at reports
      rw [reports]
      exact iff_of_false nofun nofun
  | error other =>
      change errors.head? = some other at reports
      rw [reports, Except.error.injEq, Option.some.injEq]

end Reports

theorem Select.result_reports (select : Select) :
    Reports select.result select.failure.toList := by
  rw [result, proceed]
  cases select.failure with
  | none => exact .ok select.query
  | some error => exact .error error

namespace Term

theorem describe_of_assemble {term : Term} {expr : Expr} (assembles : term.assemble = .ok expr) :
    expr.describe = term.describe := by
  induction term using induction_on_parts with
  | step term ih =>
      cases term with
      | column _ _ _ =>
          cases assembles
          rfl
      | nullable operand => exact ih operand (List.mem_singleton_self operand) assembles
      | optional _ scalar => cases scalar <;> cases assembles <;> rfl
      | value _ | literal _ | countAll =>
          cases assembles
          rfl
      | inList _ operand items =>
          simp only [assemble, except_bind_ok] at assembles
          obtain ⟨_, _, _, _, assembles⟩ := assembles
          split at assembles <;> cases assembles
          rfl
      | case first _ _ =>
          cases first
          simp only [assemble, except_bind_ok, except_pure_ok] at assembles
          obtain ⟨_, _, _, _, _, _, _, _, rfl⟩ := assembles
          rfl
      | between _ _ _ _ | window _ _ _ _ =>
          simp only [assemble, except_bind_ok, except_pure_ok] at assembles
          obtain ⟨_, _, _, _, _, _, rfl⟩ := assembles
          rfl
      | binary _ _ _ | like _ _ _ | inSelect _ _ _ =>
          simp only [assemble, except_bind_ok, except_pure_ok] at assembles
          obtain ⟨_, _, _, _, rfl⟩ := assembles
          rfl
      | not _ | negate _ | isNull _ _ | cast _ _ _ | call _ _ _ | «exists» _ _ | subquery _ =>
          simp only [assemble, except_bind_ok, except_pure_ok] at assembles
          obtain ⟨_, _, rfl⟩ := assembles
          rfl

end Term

/-- A list without items is an error behind those of its operand. -/
theorem Term.inList_reports {negated : Bool} {operand : Term} {items : List Term}
    (operandReports : Reports operand.assemble operand.errors)
    (itemsReport : Reports (assembleAll items) (listErrors items)) :
    Reports (inList negated operand items).assemble (inList negated operand items).errors := by
  apply operandReports.bind
  intro expr operandAssembles
  apply itemsReport.bind
  intro exprs itemsAssemble
  have same : exprs.isEmpty = items.isEmpty := by
    rw [assembleAll_eq] at itemsAssemble
    rw [Bool.eq_iff_iff, List.isEmpty_iff_length_eq_zero, List.isEmpty_iff_length_eq_zero,
      length_of_mapM itemsAssemble]
  rw [same, describe_of_assemble operandAssembles]
  cases items.isEmpty with
  | true => exact .error _
  | false => exact .ok _

mutual

theorem Term.assemble_reports (term : Term) : Reports term.assemble term.errors := by
  cases term with
  | column _ _ _ => exact .ok _
  | value _ => exact .ok _
  | literal _ => exact .ok _
  | optional _ scalar => cases scalar <;> exact .ok _
  | countAll => exact .ok _
  | not operand => exact operand.assemble_reports.map _
  | negate operand => exact operand.assemble_reports.map _
  | nullable operand => exact operand.assemble_reports
  | isNull _ operand => exact operand.assemble_reports.map _
  | cast operand _ _ => exact operand.assemble_reports.map (Expr.cast · _)
  | binary _ left right =>
      exact left.assemble_reports.bind fun _ _ => right.assemble_reports.map _
  | between _ operand low high =>
      exact operand.assemble_reports.bind fun _ _ =>
        low.assemble_reports.bind fun _ _ => high.assemble_reports.map _
  | like _ operand pattern =>
      exact operand.assemble_reports.bind fun _ _ => pattern.assemble_reports.map _
  | inList _ operand items =>
      exact inList_reports operand.assemble_reports (Term.assembleAll_reports items)
  | inSelect _ operand select =>
      exact operand.assemble_reports.bind fun _ _ => select.result_reports.map _
  | «exists» _ select => exact select.result_reports.map _
  | subquery select => exact select.result_reports.map _
  | call _ _ arguments => exact (Term.assembleAll_reports arguments).map _
  | window _ arguments partition order =>
      exact (Term.assembleAll_reports arguments).bind fun _ _ =>
        (Term.assembleAll_reports partition).bind fun _ _ =>
          (Term.assembleOrder_reports order).map _
  | case first rest otherwise =>
      cases first with
      | mk condition result =>
          exact condition.assemble_reports.bind fun _ _ =>
            result.assemble_reports.bind fun _ _ =>
              (Term.assembleBranches_reports rest).bind fun _ _ =>
                (Term.assembleOption_reports otherwise).map _
termination_by structural term

theorem Term.assembleAll_reports (terms : List Term) :
    Reports (Term.assembleAll terms) (Term.listErrors terms) := by
  cases terms with
  | nil => exact .ok _
  | cons term rest =>
      exact term.assemble_reports.bind fun _ _ => (Term.assembleAll_reports rest).map _
termination_by structural terms

theorem Term.assembleOrder_reports (items : List (OrderItem Term)) :
    Reports (Term.assembleOrder items) (Term.orderErrors items) := by
  cases items with
  | nil => exact .ok _
  | cons item rest =>
      cases item with
      | mk term _ =>
          exact term.assemble_reports.bind fun _ _ => (Term.assembleOrder_reports rest).map _
termination_by structural items

theorem Term.assembleBranches_reports (branches : List (Branch Term)) :
    Reports (Term.assembleBranches branches) (Term.branchErrors branches) := by
  cases branches with
  | nil => exact .ok _
  | cons branch rest =>
      cases branch with
      | mk condition result =>
          exact condition.assemble_reports.bind fun _ _ =>
            result.assemble_reports.bind fun _ _ => (Term.assembleBranches_reports rest).map _
termination_by structural branches

theorem Term.assembleOption_reports (term : Option Term) :
    Reports (Term.assembleOption term) (Term.optionErrors term) := by
  cases term with
  | none => exact .ok _
  | some term => exact term.assemble_reports.map _
termination_by structural term

end

/-! ## Errors of the parts -/

namespace Term

theorem listErrors_eq (terms : List Term) : listErrors terms = terms.flatMap errors := by
  induction terms with
  | nil => rfl
  | cons term rest ih => rw [listErrors, ih, List.flatMap_cons]

theorem orderErrors_eq (items : List (OrderItem Term)) :
    orderErrors items = (items.map OrderItem.expr).flatMap errors := by
  induction items with
  | nil => rfl
  | cons item rest ih => rw [orderErrors, ih, List.map_cons, List.flatMap_cons]

theorem branchErrors_eq (branches : List (Branch Term)) :
    branchErrors branches = (branches.flatMap Branch.both).flatMap errors := by
  induction branches with
  | nil => rfl
  | cons branch rest ih => simp [branchErrors, Branch.both, ih]

theorem optionErrors_eq (term : Option Term) :
    optionErrors term = term.toList.flatMap errors := by
  cases term <;> simp [optionErrors]

/-- The errors of a term start with those of its parts. -/
theorem exists_errors_eq (term : Term) : ∃ own, term.errors = term.parts.flatMap errors ++ own := by
  cases term with
  | inList _ operand items =>
      simp only [errors, parts, listErrors_eq, List.flatMap_cons, ← List.append_assoc]
      exact ⟨_, rfl⟩
  | inSelect _ operand select =>
      exact ⟨select.failure.toList, by simp [errors, parts]⟩
  | «exists» _ select | subquery select => exact ⟨select.failure.toList, rfl⟩
  | case first rest otherwise =>
      exact ⟨[], by simp [errors, parts, Branch.both, branchErrors_eq, optionErrors_eq]⟩
  | _ => exact ⟨[], by simp [errors, parts, listErrors_eq, orderErrors_eq]⟩

theorem parts_report (terms : List Term) :
    Reports (terms.mapM assemble) (terms.flatMap errors) := by
  rw [← assembleAll_eq, ← listErrors_eq]
  exact assembleAll_reports terms

/-- The first failure among the parts of a term is that of the term. -/
theorem assemble_error_of_parts {term : Term} {error : QueryError}
    (fails : term.parts.mapM assemble = .error error) : term.assemble = .error error := by
  obtain ⟨own, errors⟩ := term.exists_errors_eq
  have first := (parts_report term.parts).error_iff.mp fails
  rw [term.assemble_reports.error_iff, errors, List.head?_append, first]
  rfl

end Term

end SqlSelect
