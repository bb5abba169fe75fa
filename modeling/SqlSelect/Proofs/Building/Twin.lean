import SqlSelect.Proofs.Building.Assembly
import SqlSelect.Proofs.Building.Change
import SqlSelect.Proofs.Closure.Columns

/-!
# Statements that differ in their databases

Two programs that do the same for different databases make pairs of statements.  A term or
a step of the one has a twin in the other, with the twins of the statements it takes in their
places.  Both do the same to a statement, and what they do does not depend on its database.
-/

namespace SqlSelect

/-- An entry of an ORDER BY list with its expression changed. -/
def OrderItem.map {α β : Type} (change : α → β) (item : OrderItem α) : OrderItem β :=
  ⟨change item.expr, item.descending⟩

/-- A branch of a CASE with both its expressions changed. -/
def Branch.map {α β : Type} (change : α → β) (branch : Branch α) : Branch β :=
  ⟨change branch.condition, change branch.result⟩

/-! ## Twins -/

/-- Two terms are composed in the same way, out of statements that are `related` in pairs.
Lists are given as lists of pairs. -/
inductive Term.Alongside (related : Select → Select → Prop) : Term → Term → Prop where
  | same {term : Term} : term.selects = [] → Alongside related term term
  | not {left right : Term} :
      Alongside related left right → Alongside related (.not left) (.not right)
  | negate {left right : Term} :
      Alongside related left right → Alongside related (.negate left) (.negate right)
  | nullable {left right : Term} :
      Alongside related left right → Alongside related (.nullable left) (.nullable right)
  | isNull (negated : Bool) {left right : Term} :
      Alongside related left right →
      Alongside related (.isNull negated left) (.isNull negated right)
  | cast (type : DataType) (optional : Bool) {left right : Term} :
      Alongside related left right →
      Alongside related (.cast left type optional) (.cast right type optional)
  | binary (operator : BinaryOperator) {first second first' second' : Term} :
      Alongside related first first' → Alongside related second second' →
      Alongside related (.binary operator first second) (.binary operator first' second')
  | between (negated : Bool) {operand low high operand' low' high' : Term} :
      Alongside related operand operand' → Alongside related low low' →
      Alongside related high high' →
      Alongside related (.between negated operand low high) (.between negated operand' low' high')
  | like (negated : Bool) {operand pattern operand' pattern' : Term} :
      Alongside related operand operand' → Alongside related pattern pattern' →
      Alongside related (.like negated operand pattern) (.like negated operand' pattern')
  | inList (negated : Bool) {operand operand' : Term} {items : List (Term × Term)} :
      Alongside related operand operand' →
      (∀ pair ∈ items, Alongside related pair.1 pair.2) →
      Alongside related (.inList negated operand (items.map Prod.fst))
        (.inList negated operand' (items.map Prod.snd))
  | inSelect (negated : Bool) {operand operand' : Term} {select twin : Select} :
      Alongside related operand operand' → related select twin →
      Alongside related (.inSelect negated operand select) (.inSelect negated operand' twin)
  | exists (negated : Bool) {select twin : Select} :
      related select twin → Alongside related (.exists negated select) (.exists negated twin)
  | call (function : SqlFunction) (distinct : Bool) {arguments : List (Term × Term)} :
      (∀ pair ∈ arguments, Alongside related pair.1 pair.2) →
      Alongside related (.call function distinct (arguments.map Prod.fst))
        (.call function distinct (arguments.map Prod.snd))
  | window (function : SqlFunction) {arguments partition : List (Term × Term)}
      {order : List (OrderItem (Term × Term))} :
      (∀ pair ∈ arguments, Alongside related pair.1 pair.2) →
      (∀ pair ∈ partition, Alongside related pair.1 pair.2) →
      (∀ item ∈ order, Alongside related item.expr.1 item.expr.2) →
      Alongside related
        (.window function (arguments.map Prod.fst) (partition.map Prod.fst)
          (order.map (OrderItem.map Prod.fst)))
        (.window function (arguments.map Prod.snd) (partition.map Prod.snd)
          (order.map (OrderItem.map Prod.snd)))
  | subquery {select twin : Select} :
      related select twin → Alongside related (.subquery select) (.subquery twin)
  | case {first : Branch (Term × Term)} {rest : List (Branch (Term × Term))}
      {otherwise : Option (Term × Term)} :
      (∀ pair ∈ (first :: rest).flatMap Branch.both, Alongside related pair.1 pair.2) →
      (∀ pair ∈ otherwise, Alongside related pair.1 pair.2) →
      Alongside related
        (.case (first.map Prod.fst) (rest.map (Branch.map Prod.fst)) (otherwise.map Prod.fst))
        (.case (first.map Prod.snd) (rest.map (Branch.map Prod.snd)) (otherwise.map Prod.snd))

/-- Two sources are made in the same way under the same alias. -/
inductive Source.Alongside (related : Select → Select → Prop) : Source → Source → Prop where
  | table (handle : Alias) : Alongside related (.ofTable handle) (.ofTable handle)
  | temporary (handle : Alias) : Alongside related (.ofTemporary handle) (.ofTemporary handle)
  | derived {handle : Alias} {select twin : Select} {left right : Source} :
      related select twin → Source.ofDerived handle select = .ok left →
      Source.ofDerived handle twin = .ok right → Alongside related left right
  | common {handle : Alias} {select twin : Select} {left right : Source} :
      related select twin → Source.ofCommon handle select = .ok left →
      Source.ofCommon handle twin = .ok right → Alongside related left right

/-- Two steps do the same, with related statements and `paired` sources. -/
inductive Step.Alongside (related : Select → Select → Prop) (paired : Source → Source → Prop) :
    Step → Step → Prop where
  | join (kind : JoinKind) {source twin : Source} :
      paired source twin → Alongside related paired (.join kind source) (.join kind twin)
  | union (operator : SetOperator) {operand twin : Select} :
      related operand twin →
      Alongside related paired (.union operator operand) (.union operator twin)
  | on {left right : Term} :
      left.Alongside related right → Alongside related paired (.on left) (.on right)
  | extend (connective : Connective) {left right : Term} :
      left.Alongside related right →
      Alongside related paired (.extend connective left) (.extend connective right)
  | select (label : Option String) {left right : Term} :
      left.Alongside related right →
      Alongside related paired (.select left label) (.select right label)
  | comma (label : Option String) {left right : Term} :
      left.Alongside related right →
      Alongside related paired (.comma left label) (.comma right label)
  | filter {left right : Term} :
      left.Alongside related right → Alongside related paired (.filter left) (.filter right)
  | groupBy {left right : Term} :
      left.Alongside related right → Alongside related paired (.groupBy left) (.groupBy right)
  | having {left right : Term} :
      left.Alongside related right → Alongside related paired (.having left) (.having right)
  | orderBy (descending : Bool) {left right : Term} :
      left.Alongside related right →
      Alongside related paired (.orderBy left descending) (.orderBy right descending)
  | thenBy (descending : Bool) {left right : Term} :
      left.Alongside related right →
      Alongside related paired (.thenBy left descending) (.thenBy right descending)
  | distinct : Alongside related paired .distinct .distinct
  | fetchFirst (count : Nat) : Alongside related paired (.fetchFirst count) (.fetchFirst count)
  | offset (count : Nat) : Alongside related paired (.offset count) (.offset count)
  | isolation (level : IsolationLevel) :
      Alongside related paired (.isolation level) (.isolation level)
  | lock (level : LockLevel) : Alongside related paired (.lock level) (.lock level)

/-- The statement for another database. -/
def Select.withDatabase (select : Select) (database : Database) : Select :=
  { select with scope := { select.scope with database } }

/-! ## Twins do the same -/

theorem mapM_congr_of_mem {α β ε : Type} {items : List α} {first second : α → Except ε β}
    (same : ∀ item ∈ items, first item = second item) : items.mapM first = items.mapM second := by
  induction items with
  | nil => rfl
  | cons item rest ih =>
      rw [List.mapM_cons, List.mapM_cons, same item List.mem_cons_self,
        ih fun other member => same other (List.mem_cons_of_mem item member)]

namespace Term

theorem assembleAll_pairs {items : List (Term × Term)}
    (same : ∀ pair ∈ items, pair.1.assemble = pair.2.assemble) :
    assembleAll (items.map Prod.fst) = assembleAll (items.map Prod.snd) := by
  rw [assembleAll_eq, assembleAll_eq, List.mapM_map, List.mapM_map]
  exact mapM_congr_of_mem same

theorem assembleOrder_pairs {items : List (OrderItem (Term × Term))}
    (same : ∀ item ∈ items, item.expr.1.assemble = item.expr.2.assemble) :
    assembleOrder (items.map (OrderItem.map Prod.fst)) =
      assembleOrder (items.map (OrderItem.map Prod.snd)) := by
  rw [assembleOrder_eq, assembleOrder_eq, List.mapM_map, List.mapM_map]
  apply mapM_congr_of_mem
  intro item member
  simp only [Function.comp_apply, OrderItem.map, same item member]

theorem assembleBranches_pairs {branches : List (Branch (Term × Term))}
    (same : ∀ pair ∈ branches.flatMap Branch.both, pair.1.assemble = pair.2.assemble) :
    assembleBranches (branches.map (Branch.map Prod.fst)) =
      assembleBranches (branches.map (Branch.map Prod.snd)) := by
  rw [assembleBranches_eq, assembleBranches_eq, List.mapM_map, List.mapM_map]
  apply mapM_congr_of_mem
  intro branch member
  have condition := same branch.condition
    (List.mem_flatMap.mpr ⟨branch, member, by simp [Branch.both]⟩)
  have result := same branch.result
    (List.mem_flatMap.mpr ⟨branch, member, by simp [Branch.both]⟩)
  simp only [Function.comp_apply, Branch.map, condition, result]

theorem assembleOption_pair {term : Option (Term × Term)}
    (same : ∀ pair ∈ term, pair.1.assemble = pair.2.assemble) :
    assembleOption (term.map Prod.fst) = assembleOption (term.map Prod.snd) := by
  cases term with
  | none => rfl
  | some pair => simp only [Option.map, assembleOption, same pair rfl]

theorem listFrom_pairs {origin : Select → Prop} {items : List (Term × Term)}
    (sourced : ∀ pair ∈ items, pair.1.From origin) :
    ∀ select ∈ listSelects (items.map Prod.fst), origin select := by
  induction items with
  | nil => exact fun _ member => absurd member List.not_mem_nil
  | cons pair rest ih =>
      obtain ⟨own, others⟩ := List.forall_mem_cons.mp sourced
      exact List.forall_mem_append.mpr ⟨own, ih others⟩

theorem orderFrom_pairs {origin : Select → Prop} {items : List (OrderItem (Term × Term))}
    (sourced : ∀ item ∈ items, item.expr.1.From origin) :
    ∀ select ∈ orderSelects (items.map (OrderItem.map Prod.fst)), origin select := by
  induction items with
  | nil => exact fun _ member => absurd member List.not_mem_nil
  | cons item rest ih =>
      obtain ⟨own, others⟩ := List.forall_mem_cons.mp sourced
      exact List.forall_mem_append.mpr ⟨own, ih others⟩

theorem branchFrom_pairs {origin : Select → Prop} {branches : List (Branch (Term × Term))}
    (sourced : ∀ pair ∈ branches.flatMap Branch.both, pair.1.From origin) :
    ∀ select ∈ branchSelects (branches.map (Branch.map Prod.fst)), origin select := by
  induction branches with
  | nil => exact fun _ member => absurd member List.not_mem_nil
  | cons branch rest ih =>
      obtain ⟨own, others⟩ := List.forall_mem_append.mp sourced
      have condition := own branch.condition List.mem_cons_self
      have result := own branch.result (List.mem_cons_of_mem _ List.mem_cons_self)
      exact List.forall_mem_append.mpr
        ⟨List.forall_mem_append.mpr ⟨condition, result⟩, ih others⟩

theorem headType_pairs {items : List (Term × Term)}
    (same : ∀ pair ∈ items, pair.1.type = pair.2.type) :
    headType (items.map Prod.fst) = headType (items.map Prod.snd) := by
  cases items with
  | nil => rfl
  | cons pair _ => exact same pair List.mem_cons_self

namespace Alongside

variable {related : Select → Select → Prop} {left right : Term}

/-- Twins stand for the same expression, if related statements have the same result. -/
theorem assemble (results : ∀ select twin, related select twin → select.result = twin.result)
    (alongside : left.Alongside related right) : left.assemble = right.assemble := by
  induction alongside with
  | same _ => rfl
  | not _ ih | negate _ ih | isNull _ _ ih | cast _ _ _ ih =>
      rw [Term.assemble, ih, Term.assemble]
  | nullable _ ih => exact ih
  | binary _ _ _ first second | like _ _ _ first second =>
      rw [Term.assemble, first, second, Term.assemble]
  | between _ _ _ _ operand low high =>
      rw [Term.assemble, operand, low, high, Term.assemble]
  | inList _ _ _ operand items =>
      rw [Term.assemble, operand, assembleAll_pairs items, Term.assemble]
  | inSelect _ _ twins operand => rw [Term.assemble, operand, results _ _ twins, Term.assemble]
  | «exists» _ twins => rw [Term.assemble, results _ _ twins, Term.assemble]
  | subquery twins => rw [Term.assemble, results _ _ twins, Term.assemble]
  | call _ _ _ arguments => rw [Term.assemble, assembleAll_pairs arguments, Term.assemble]
  | window _ _ _ _ arguments partition order =>
      rw [Term.assemble, assembleAll_pairs arguments, assembleAll_pairs partition,
        assembleOrder_pairs order, Term.assemble]
  | @case first rest otherwise _ _ branches absent =>
      cases first with
      | mk condition result =>
          have conditionSame := branches condition (by simp [Branch.both])
          have resultSame := branches result (by simp [Branch.both])
          have restSame := assembleBranches_pairs fun pair member =>
            branches pair (List.mem_append_right _ member)
          have absentSame := assembleOption_pair absent
          simp only [Branch.map, Term.assemble, conditionSame, resultSame, restSame, absentSame]

/-- Twins have the same type, if related statements have rows of the same type. -/
theorem type (shapes : ∀ select twin, related select twin → select.rowType = twin.rowType)
    (alongside : left.Alongside related right) : left.type = right.type := by
  induction alongside with
  | same _ => rfl
  | not _ _ | isNull _ _ _ | cast _ _ _ _ | between _ _ _ _ _ _ _ | like _ _ _ _ _
  | inList _ _ _ _ _ | inSelect _ _ _ _ | «exists» _ _ => rfl
  | negate _ ih => exact ih
  | nullable _ ih => rw [Term.type, ih, Term.type]
  | binary _ _ _ first _ => rw [Term.type, first, Term.type]
  | subquery twins => exact shapes _ _ twins
  | call _ _ _ arguments => rw [Term.type, headType_pairs arguments, Term.type]
  | window _ _ _ _ arguments _ _ => rw [Term.type, headType_pairs arguments, Term.type]
  | @case first rest otherwise _ _ branches _ =>
      cases first with
      | mk condition result =>
          have resultSame := branches result (by simp [Branch.both])
          cases otherwise <;> simp only [Branch.map, Option.map, Term.type, resultSame]

/-- The statements in a term are of those that have twins. -/
theorem sourced {origin : Select → Prop} (alongside : left.Alongside related right)
    (known : ∀ select twin, related select twin → origin select) : left.From origin := by
  induction alongside with
  | same none =>
      intro select member
      rw [none] at member
      cases member
  | not _ ih | negate _ ih | nullable _ ih | isNull _ _ ih | cast _ _ _ ih => exact ih
  | binary _ _ _ first second | like _ _ _ first second =>
      exact List.forall_mem_append.mpr ⟨first, second⟩
  | between _ _ _ _ operand low high =>
      exact List.forall_mem_append.mpr ⟨List.forall_mem_append.mpr ⟨operand, low⟩, high⟩
  | inList _ _ _ operand items =>
      exact List.forall_mem_append.mpr ⟨operand, listFrom_pairs items⟩
  | inSelect _ _ twins operand =>
      exact List.forall_mem_append.mpr ⟨operand, List.forall_mem_singleton.mpr (known _ _ twins)⟩
  | «exists» _ twins | subquery twins => exact List.forall_mem_singleton.mpr (known _ _ twins)
  | call _ _ _ arguments => exact listFrom_pairs arguments
  | window _ _ _ _ arguments partition order =>
      exact List.forall_mem_append.mpr ⟨List.forall_mem_append.mpr
        ⟨listFrom_pairs arguments, listFrom_pairs partition⟩, orderFrom_pairs order⟩
  | @case first rest otherwise _ _ branches absent =>
      cases first with
      | mk condition result =>
          have conditionFrom := branches condition (by simp [Branch.both])
          have resultFrom := branches result (by simp [Branch.both])
          have restFrom := branchFrom_pairs fun pair member =>
            branches pair (List.mem_append_right _ member)
          refine List.forall_mem_append.mpr ⟨List.forall_mem_append.mpr
            ⟨List.forall_mem_append.mpr ⟨conditionFrom, resultFrom⟩, restFrom⟩, ?_⟩
          cases otherwise with
          | none =>
              intro select member
              cases member
          | some pair => exact absent pair rfl

end Alongside

end Term

/-- So is the statement behind a source. -/
theorem Source.Alongside.sourced {related : Select → Select → Prop} {origin : Select → Prop}
    {left right : Source} (alongside : left.Alongside related right)
    (known : ∀ select twin, related select twin → origin select) : left.From origin := by
  intro query behind
  cases alongside with
  | table _ | temporary _ => cases behind
  | derived twins made _ | common twins made _ =>
      simp only [ofDerived, ofCommon, except_bind_ok, except_pure_ok] at made
      obtain ⟨_, finished, rfl⟩ := made
      cases behind
      exact ⟨_, known _ _ twins, finished⟩

/-- So are the statements in a step. -/
theorem Step.Alongside.sourced {related : Select → Select → Prop}
    {paired : Source → Source → Prop} {origin : Select → Prop} {left right : Step}
    (alongside : left.Alongside related paired right)
    (known : ∀ select twin, related select twin → origin select)
    (behind : ∀ source twin, paired source twin → source.From origin) : left.From origin := by
  cases alongside with
  | join _ joined => exact behind _ _ joined
  | union _ twins => exact known _ _ twins
  | on terms | extend _ terms | select _ terms | comma _ terms | filter terms | groupBy terms
  | having terms | orderBy _ terms | thenBy _ terms => exact terms.sourced known
  | distinct | fetchFirst _ | offset _ | isolation _ | lock _ => trivial

/-- Sources that are made alongside are the same. -/
theorem Source.Alongside.eq {related : Select → Select → Prop} {left right : Source}
    (results : ∀ select twin, related select twin → select.result = twin.result)
    (alongside : left.Alongside related right) : left = right := by
  cases alongside with
  | table _ | temporary _ => rfl
  | derived twins made other =>
      rw [ofDerived, ← results _ _ twins] at other
      exact Except.ok.inj (made.symm.trans other)
  | common twins made other =>
      rw [ofCommon, ← results _ _ twins] at other
      exact Except.ok.inj (made.symm.trans other)

/-! ## Everything has a twin -/

section Existence

variable {related : Select → Select → Prop}

mutual

/-- A term has a twin if the statements in it have. -/
theorem Term.exists_alongside (term : Term)
    (known : ∀ select ∈ term.selects, ∃ twin, related select twin) :
    ∃ twin, term.Alongside related twin := by
  cases term with
  | column _ _ _ | value _ | literal _ | optional _ _ | countAll => exact ⟨_, .same rfl⟩
  | not operand =>
      obtain ⟨_, twins⟩ := operand.exists_alongside known
      exact ⟨_, .not twins⟩
  | negate operand =>
      obtain ⟨_, twins⟩ := operand.exists_alongside known
      exact ⟨_, .negate twins⟩
  | nullable operand =>
      obtain ⟨_, twins⟩ := operand.exists_alongside known
      exact ⟨_, .nullable twins⟩
  | isNull negated operand =>
      obtain ⟨_, twins⟩ := operand.exists_alongside known
      exact ⟨_, .isNull negated twins⟩
  | cast operand type optional =>
      obtain ⟨_, twins⟩ := operand.exists_alongside known
      exact ⟨_, .cast type optional twins⟩
  | binary operator left right =>
      obtain ⟨leftKnown, rightKnown⟩ := List.forall_mem_append.mp known
      obtain ⟨_, leftTwins⟩ := left.exists_alongside leftKnown
      obtain ⟨_, rightTwins⟩ := right.exists_alongside rightKnown
      exact ⟨_, .binary operator leftTwins rightTwins⟩
  | like negated operand pattern =>
      obtain ⟨operandKnown, patternKnown⟩ := List.forall_mem_append.mp known
      obtain ⟨_, operandTwins⟩ := operand.exists_alongside operandKnown
      obtain ⟨_, patternTwins⟩ := pattern.exists_alongside patternKnown
      exact ⟨_, .like negated operandTwins patternTwins⟩
  | between negated operand low high =>
      obtain ⟨ahead, highKnown⟩ := List.forall_mem_append.mp known
      obtain ⟨operandKnown, lowKnown⟩ := List.forall_mem_append.mp ahead
      obtain ⟨_, operandTwins⟩ := operand.exists_alongside operandKnown
      obtain ⟨_, lowTwins⟩ := low.exists_alongside lowKnown
      obtain ⟨_, highTwins⟩ := high.exists_alongside highKnown
      exact ⟨_, .between negated operandTwins lowTwins highTwins⟩
  | inList negated operand items =>
      obtain ⟨operandKnown, itemsKnown⟩ := List.forall_mem_append.mp known
      obtain ⟨_, operandTwins⟩ := operand.exists_alongside operandKnown
      obtain ⟨_, rfl, itemsTwins⟩ := Term.exists_listPairs items itemsKnown
      exact ⟨_, .inList negated operandTwins itemsTwins⟩
  | inSelect negated operand select =>
      obtain ⟨operandKnown, selectKnown⟩ := List.forall_mem_append.mp known
      obtain ⟨_, operandTwins⟩ := operand.exists_alongside operandKnown
      obtain ⟨_, twins⟩ := selectKnown select List.mem_cons_self
      exact ⟨_, .inSelect negated operandTwins twins⟩
  | «exists» negated select =>
      obtain ⟨_, twins⟩ := known select List.mem_cons_self
      exact ⟨_, .exists negated twins⟩
  | subquery select =>
      obtain ⟨_, twins⟩ := known select List.mem_cons_self
      exact ⟨_, .subquery twins⟩
  | call function distinct arguments =>
      obtain ⟨_, rfl, twins⟩ := Term.exists_listPairs arguments known
      exact ⟨_, .call function distinct twins⟩
  | window function arguments partition order =>
      obtain ⟨ahead, orderKnown⟩ := List.forall_mem_append.mp known
      obtain ⟨argumentsKnown, partitionKnown⟩ := List.forall_mem_append.mp ahead
      obtain ⟨_, rfl, argumentsTwins⟩ := Term.exists_listPairs arguments argumentsKnown
      obtain ⟨_, rfl, partitionTwins⟩ := Term.exists_listPairs partition partitionKnown
      obtain ⟨_, rfl, orderTwins⟩ := Term.exists_orderPairs order orderKnown
      exact ⟨_, .window function argumentsTwins partitionTwins orderTwins⟩
  | case first rest otherwise =>
      cases first with
      | mk condition result =>
          obtain ⟨ahead, otherwiseKnown⟩ := List.forall_mem_append.mp known
          obtain ⟨firstKnown, restKnown⟩ := List.forall_mem_append.mp ahead
          obtain ⟨conditionKnown, resultKnown⟩ := List.forall_mem_append.mp firstKnown
          obtain ⟨conditionTwin, conditionTwins⟩ := condition.exists_alongside conditionKnown
          obtain ⟨resultTwin, resultTwins⟩ := result.exists_alongside resultKnown
          obtain ⟨pairs, rfl, restTwins⟩ := Term.exists_branchPairs rest restKnown
          obtain ⟨_, rfl, otherwiseTwins⟩ := Term.exists_optionPair otherwise otherwiseKnown
          have both : ∀ pair ∈ (⟨(condition, conditionTwin), (result, resultTwin)⟩ ::
              pairs).flatMap Branch.both, pair.1.Alongside related pair.2 :=
            List.forall_mem_append.mpr
              ⟨by simp [Branch.both, conditionTwins, resultTwins], restTwins⟩
          exact ⟨_, .case both otherwiseTwins⟩
termination_by structural term

theorem Term.exists_listPairs (terms : List Term)
    (known : ∀ select ∈ Term.listSelects terms, ∃ twin, related select twin) :
    ∃ pairs : List (Term × Term), pairs.map Prod.fst = terms ∧
      ∀ pair ∈ pairs, pair.1.Alongside related pair.2 := by
  cases terms with
  | nil => exact ⟨[], rfl, fun _ member => absurd member List.not_mem_nil⟩
  | cons term rest =>
      obtain ⟨own, others⟩ := List.forall_mem_append.mp known
      obtain ⟨twin, twins⟩ := term.exists_alongside own
      obtain ⟨pairs, rfl, restTwins⟩ := Term.exists_listPairs rest others
      exact ⟨(term, twin) :: pairs, rfl, List.forall_mem_cons.mpr ⟨twins, restTwins⟩⟩
termination_by structural terms

theorem Term.exists_orderPairs (items : List (OrderItem Term))
    (known : ∀ select ∈ Term.orderSelects items, ∃ twin, related select twin) :
    ∃ pairs : List (OrderItem (Term × Term)), pairs.map (OrderItem.map Prod.fst) = items ∧
      ∀ item ∈ pairs, item.expr.1.Alongside related item.expr.2 := by
  cases items with
  | nil => exact ⟨[], rfl, fun _ member => absurd member List.not_mem_nil⟩
  | cons item rest =>
      cases item with
      | mk term descending =>
          obtain ⟨own, others⟩ := List.forall_mem_append.mp known
          obtain ⟨twin, twins⟩ := term.exists_alongside own
          obtain ⟨pairs, rfl, restTwins⟩ := Term.exists_orderPairs rest others
          exact ⟨⟨(term, twin), descending⟩ :: pairs, rfl,
            List.forall_mem_cons.mpr ⟨twins, restTwins⟩⟩
termination_by structural items

theorem Term.exists_branchPairs (branches : List (Branch Term))
    (known : ∀ select ∈ Term.branchSelects branches, ∃ twin, related select twin) :
    ∃ pairs : List (Branch (Term × Term)), pairs.map (Branch.map Prod.fst) = branches ∧
      ∀ pair ∈ pairs.flatMap Branch.both, pair.1.Alongside related pair.2 := by
  cases branches with
  | nil => exact ⟨[], rfl, fun _ member => absurd member List.not_mem_nil⟩
  | cons branch rest =>
      cases branch with
      | mk condition result =>
          obtain ⟨own, others⟩ := List.forall_mem_append.mp known
          obtain ⟨conditionKnown, resultKnown⟩ := List.forall_mem_append.mp own
          obtain ⟨conditionTwin, conditionTwins⟩ := condition.exists_alongside conditionKnown
          obtain ⟨resultTwin, resultTwins⟩ := result.exists_alongside resultKnown
          obtain ⟨pairs, rfl, restTwins⟩ := Term.exists_branchPairs rest others
          exact ⟨⟨(condition, conditionTwin), (result, resultTwin)⟩ :: pairs, rfl,
            List.forall_mem_append.mpr
              ⟨by simp [Branch.both, conditionTwins, resultTwins], restTwins⟩⟩
termination_by structural branches

theorem Term.exists_optionPair (term : Option Term)
    (known : ∀ select ∈ Term.optionSelects term, ∃ twin, related select twin) :
    ∃ found : Option (Term × Term), found.map Prod.fst = term ∧
      ∀ pair ∈ found, pair.1.Alongside related pair.2 := by
  cases term with
  | none => exact ⟨none, rfl, nofun⟩
  | some term =>
      obtain ⟨twin, twins⟩ := term.exists_alongside known
      refine ⟨some (term, twin), rfl, ?_⟩
      rintro _ ⟨⟩
      exact twins
termination_by structural term

end

/-- A source is its own twin if the statement behind it has one with the same result. -/
theorem Source.alongside_self {origin : Select → Prop} {source : Source}
    (sourced : source.From origin)
    (known : ∀ select, origin select → ∃ twin, related select twin ∧ twin.result = select.result) :
    source.Alongside related source := by
  cases source with
  | mk handle relation =>
      cases relation with
      | table => exact .table handle
      | temporary => exact .temporary handle
      | derived query =>
          obtain ⟨select, isOrigin, finished⟩ := sourced query rfl
          obtain ⟨twin, twins, same⟩ := known select isOrigin
          apply Source.Alongside.derived twins
          · rw [ofDerived, finished]
            rfl
          · rw [ofDerived, same, finished]
            rfl
      | common query =>
          obtain ⟨select, isOrigin, finished⟩ := sourced query rfl
          obtain ⟨twin, twins, same⟩ := known select isOrigin
          apply Source.Alongside.common twins
          · rw [ofCommon, finished]
            rfl
          · rw [ofCommon, same, finished]
            rfl

/-- A step has a twin if the statements in it have, and a source that it joins is its own. -/
theorem Step.exists_alongside {paired : Source → Source → Prop} {origin : Select → Prop}
    {step : Step} (sourced : step.From origin)
    (known : ∀ select, origin select → ∃ twin, related select twin)
    (joined : ∀ kind source, step = .join kind source → paired source source) :
    ∃ twin, step.Alongside related paired twin := by
  have terms (term : Term) (termSourced : term.From origin) :
      ∃ twin, term.Alongside related twin :=
    term.exists_alongside fun select member => known select (termSourced select member)
  cases step with
  | join kind source => exact ⟨_, .join kind (joined kind source rfl)⟩
  | union operator operand =>
      obtain ⟨_, twins⟩ := known operand sourced
      exact ⟨_, .union operator twins⟩
  | on term =>
      obtain ⟨_, twins⟩ := terms term sourced
      exact ⟨_, .on twins⟩
  | extend connective term =>
      obtain ⟨_, twins⟩ := terms term sourced
      exact ⟨_, .extend connective twins⟩
  | select term label =>
      obtain ⟨_, twins⟩ := terms term sourced
      exact ⟨_, .select label twins⟩
  | comma term label =>
      obtain ⟨_, twins⟩ := terms term sourced
      exact ⟨_, .comma label twins⟩
  | filter term =>
      obtain ⟨_, twins⟩ := terms term sourced
      exact ⟨_, .filter twins⟩
  | groupBy term =>
      obtain ⟨_, twins⟩ := terms term sourced
      exact ⟨_, .groupBy twins⟩
  | having term =>
      obtain ⟨_, twins⟩ := terms term sourced
      exact ⟨_, .having twins⟩
  | orderBy term descending =>
      obtain ⟨_, twins⟩ := terms term sourced
      exact ⟨_, .orderBy descending twins⟩
  | thenBy term descending =>
      obtain ⟨_, twins⟩ := terms term sourced
      exact ⟨_, .thenBy descending twins⟩
  | distinct => exact ⟨_, .distinct⟩
  | fetchFirst count => exact ⟨_, .fetchFirst count⟩
  | offset count => exact ⟨_, .offset count⟩
  | isolation level => exact ⟨_, .isolation level⟩
  | lock level => exact ⟨_, .lock level⟩

end Existence

/-! ## No step looks at the database -/

theorem Scope.resolve_congr {scope other : Scope} (levels : scope.levels = other.levels) :
    scope.resolve = other.resolve := by
  funext column hint
  rw [resolve, resolve, visible, visible, levels]

/-- Binding looks at nothing but the levels of a scope. -/
theorem Expr.bind_congr {scope other : Scope} (levels : scope.levels = other.levels)
    (expr : Expr) : expr.bind scope = expr.bind other := by
  have resolves : ColumnReference.resolve scope = ColumnReference.resolve other := by
    funext reference
    cases reference with
    | resolved _ => rfl
    | unresolved _ _ => rw [ColumnReference.resolve, Scope.resolve_congr levels]; rfl
  have settles : (ColumnReference.settle scope ·) = (ColumnReference.settle other ·) := by
    funext reference
    simp only [ColumnReference.settle, resolves]
  rw [bind_eq, bind_eq, resolves, settles]

namespace Select

variable {select : Select} {database : Database}

@[simp] theorem stage_withDatabase : (select.withDatabase database).stage = select.stage := rfl

theorem bindTerm_withDatabase (term : Term) :
    (select.withDatabase database).bindTerm term = select.bindTerm term := by
  have binds (expr : Expr) :
      expr.bind (select.withDatabase database).scope = expr.bind select.scope := by
    apply Expr.bind_congr
    rfl
  simp only [bindTerm, binds]
  rfl

theorem amend_withDatabase (result : Except QueryError Query) :
    (select.withDatabase database).amend result = (select.amend result).withDatabase database := by
  cases result <;> rfl

theorem edit_withDatabase (step : Step) :
    (select.withDatabase database).edit step = (select.edit step).withDatabase database := by
  cases step with
  | join _ _ | distinct | fetchFirst _ | offset _ | isolation _ | lock _ => rfl
  | union _ _ => exact amend_withDatabase _
  | on _ | filter _ | having _ | groupBy _ | orderBy _ _ | thenBy _ _ =>
      simp only [edit, group, order, bindTerm_withDatabase]
      exact amend_withDatabase _
  | select _ _ =>
      simp only [edit, project, bindTerm_withDatabase, amend_withDatabase]
      rfl
  | extend _ _ =>
      simp only [edit, stage_withDatabase, bindTerm_withDatabase, amend_withDatabase]
      cases select.stage.clause? <;> rfl
  | comma _ _ =>
      simp only [edit, project, group, stage_withDatabase, bindTerm_withDatabase,
        amend_withDatabase]
      split <;> rfl

/-- A step does the same for every database. -/
theorem apply_withDatabase (step : Step) :
    (select.withDatabase database).apply step = (select.apply step).withDatabase database := by
  rw [apply, apply, stage_withDatabase]
  cases step.next? select.stage with
  | none => rfl
  | some _ =>
      rw [edit_withDatabase]
      rfl

/-- Steps that are twins do the same to a statement. -/
theorem apply_alongside {related : Select → Select → Prop} {paired : Source → Source → Prop}
    (twins : ∀ select twin, related select twin → ∃ database, twin = select.withDatabase database)
    (sources : ∀ source twin, paired source twin → source = twin) {left right : Step}
    (alongside : left.Alongside related paired right) : select.apply left = select.apply right := by
  have results : ∀ select twin, related select twin → select.result = twin.result := by
    intro select twin known
    obtain ⟨_, rfl⟩ := twins select twin known
    rfl
  have shapes : ∀ select twin, related select twin → select.rowType = twin.rowType := by
    intro select twin known
    obtain ⟨_, rfl⟩ := twins select twin known
    rfl
  cases alongside with
  | join _ known => rw [sources _ _ known]
  | union _ known =>
      obtain ⟨_, rfl⟩ := twins _ _ known
      rfl
  | distinct | fetchFirst _ | offset _ | isolation _ | lock _ => rfl
  | on terms | extend _ terms | select _ terms | comma _ terms | filter terms | groupBy terms
  | having terms | orderBy _ terms | thenBy _ terms =>
      have assembles := terms.assemble results
      have types := terms.type shapes
      simp only [apply, Step.next?, edit, project, group, order, bindTerm, assembles, types]

end Select

end SqlSelect
