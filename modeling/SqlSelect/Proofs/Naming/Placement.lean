import SqlSelect.Proofs.Building.Change

/-!
# Statements in their places

A statement that is started inside another finds the aliases of the other, and may be used
wherever those are in sight: in the clauses of the other, as its operand, or behind one of
its sources.  A common table is declared ahead of the whole statement, where no alias is in
sight.  If every step keeps to that, a query finds around it whatever was around it when it
was built.
-/

namespace SqlSelect

/-! ## Where a query stands -/

/-- A query stands within another, at any depth, and these are the FROM lists of the
statements around it, nearest first.  An operand stands beside its query, and no statement is
around a common table. -/
inductive Query.HoldsIn (query : Query) : List (List Alias) → Query → Prop where
  | self : HoldsIn query [] query
  | inExpr {levels : List (List Alias)} {middle nested : Query} {expr : Expr} :
      HoldsIn query levels middle → expr ∈ middle.exprs → .query nested ∈ expr.leaves →
      HoldsIn query (middle.aliases :: levels) nested
  | derived {levels : List (List Alias)} {middle nested : Query} {handle : Alias} :
      HoldsIn query levels middle → ⟨handle, .derived nested⟩ ∈ middle.sources →
      HoldsIn query (middle.aliases :: levels) nested
  | common {levels : List (List Alias)} {middle nested : Query} {handle : Alias} :
      HoldsIn query levels middle → ⟨handle, .common nested⟩ ∈ middle.sources →
      HoldsIn query [] nested
  | operand {levels : List (List Alias)} {middle : Query} {operand : Operand} :
      HoldsIn query levels middle → operand ∈ middle.operands →
      HoldsIn query levels operand.query

/-! ## Where a statement may be used -/

/-- Whatever was around the statement when it was started is among some aliases. -/
def Select.InSight (visible : List Alias) (select : Select) : Prop :=
  ∀ handle ∈ select.scope.enclosing.flatten, handle ∈ visible

/-- A query is that of a statement of `origin` that may be used among some aliases. -/
def Query.PlacedIn (origin : Select → Prop) (visible : List Alias) (query : Query) : Prop :=
  ∃ select, origin select ∧ select.result = .ok query ∧ select.InSight visible

/-- The query behind a source, if there is one, is in its place. -/
def Relation.PlacedIn (origin : Select → Prop) (visible : List Alias) : Relation → Prop
  | .table | .temporary => True
  | .derived query => query.PlacedIn origin visible
  | .common query => query.PlacedIn origin []

/-- The statements in a term are of `origin`, and may be used among some aliases. -/
def Term.PlacedIn (origin : Select → Prop) (visible : List Alias) (term : Term) : Prop :=
  ∀ select ∈ term.selects, origin select ∧ select.InSight visible

/-- The statements in a step are of `origin`, and may be used where the step is taken. -/
def Step.PlacedIn (origin : Select → Prop) (scope : Scope) : Step → Prop
  | .join _ source => source.relation.PlacedIn origin scope.visible
  | .union _ operand => origin operand ∧ operand.InSight scope.enclosing.flatten
  | .on term | .extend _ term | .select term _ | .comma term _ | .filter term | .groupBy term
  | .having term | .orderBy term _ | .thenBy term _ => term.PlacedIn origin scope.visible
  | .distinct | .fetchFirst _ | .offset _ | .isolation _ | .lock _ => True

/-- A statement is built by steps, from a first source and out of the statements of `origin`,
each of them used where it may be. -/
inductive Select.Placed (origin : Select → Prop) : Select → Prop where
  | outermost (database : Database) {source : Source} :
      source.relation.PlacedIn origin [] → Placed origin (database.select source)
  | nested (scope : Scope) {source : Source} :
      source.relation.PlacedIn origin scope.visible → Placed origin (scope.select source)
  | step {select : Select} {step : Step} :
      Placed origin select → step.PlacedIn origin select.scope →
      Placed origin (select.apply step)

variable {origin : Select → Prop}

/-! ## More aliases in sight -/

section

variable {visible more : List Alias}

theorem Query.PlacedIn.mono {query : Query} (placed : query.PlacedIn origin visible)
    (subset : ∀ handle ∈ visible, handle ∈ more) : query.PlacedIn origin more := by
  obtain ⟨select, known, finished, inSight⟩ := placed
  exact ⟨select, known, finished, fun handle outer => subset handle (inSight handle outer)⟩

theorem Relation.PlacedIn.mono {relation : Relation} (placed : relation.PlacedIn origin visible)
    (subset : ∀ handle ∈ visible, handle ∈ more) : relation.PlacedIn origin more := by
  cases relation with
  | table | temporary => trivial
  | derived query => exact Query.PlacedIn.mono placed subset
  | common query => exact placed

theorem Relation.PlacedIn.sourced {source : Source}
    (placed : source.relation.PlacedIn origin visible) : source.From origin := by
  intro query behind
  cases relation : source.relation with
  | table | temporary =>
      rw [relation] at behind
      cases behind
  | derived _ | common _ =>
      rw [relation] at behind placed
      cases behind
      obtain ⟨select, known, finished, _⟩ := placed
      exact ⟨select, known, finished⟩

end

theorem Step.PlacedIn.sourced {scope : Scope} {step : Step}
    (placed : step.PlacedIn origin scope) : step.From origin := by
  cases step with
  | join _ source => exact Relation.PlacedIn.sourced placed
  | union _ operand => exact placed.1
  | on _ | extend _ _ | select _ _ | comma _ _ | filter _ | groupBy _ | having _ | orderBy _ _
  | thenBy _ _ => exact fun select inTerm => (placed select inTerm).1
  | distinct | fetchFirst _ | offset _ | isolation _ | lock _ => trivial

theorem Step.PlacedIn.term {scope : Scope} {step : Step} (placed : step.PlacedIn origin scope)
    {term : Term} (takes : step.term? = some term) : term.PlacedIn origin scope.visible := by
  cases step with
  | join _ _ | union _ _ | distinct | fetchFirst _ | offset _ | isolation _ | lock _ => cases takes
  | on _ | extend _ _ | select _ _ | comma _ _ | filter _ | groupBy _ | having _ | orderBy _ _
  | thenBy _ _ =>
      cases takes
      exact placed

namespace Select

variable {select : Select}

theorem Placed.built (placed : select.Placed origin) : select.Built origin := by
  induction placed with
  | outermost database relation => exact .outermost database relation.sourced
  | nested scope relation => exact .nested scope relation.sourced
  | step _ step ih => exact ih.step step.sourced

/-! ## The invariant -/

/-- What every step preserves of the queries directly within a statement. -/
structure Fits (origin : Select → Prop) (select : Select) : Prop where
  exprs : ∀ expr ∈ select.query.exprs, ∀ nested, .query nested ∈ expr.leaves →
    nested.PlacedIn origin select.scope.visible
  sources : ∀ source ∈ select.query.sources,
    source.relation.PlacedIn origin select.scope.visible
  operands : ∀ operand ∈ select.query.operands,
    operand.query.PlacedIn origin select.scope.enclosing.flatten

/-- A step leaves the levels around a statement as they are. -/
theorem enclosing_apply (select : Select) (step : Step) :
    (select.apply step).scope.enclosing = select.scope.enclosing := by
  rw [apply]
  split
  · rw [scope_edit]
    cases step <;> rfl
  · rfl

/-- No step takes an alias out of sight. -/
theorem visible_apply (step : Step) {handle : Alias} (visible : handle ∈ select.scope.visible) :
    handle ∈ (select.apply step).scope.visible := by
  rw [apply]
  split
  · simp only [scope_edit]
    cases step with
    | join _ source =>
        simp only [Scope.visible, Scope.levels, List.flatten_cons, List.mem_append] at visible
        simp only [Step.widen, Scope.visible, Scope.levels, Scope.nearest_plus,
          Scope.enclosing_plus, List.flatten_cons, List.mem_append]
        exact visible.imp_left .inl
    | on _ | extend _ _ | select _ _ | comma _ _ | distinct | filter _ | groupBy _ | having _
    | orderBy _ _ | thenBy _ _ | union _ _ | fetchFirst _ | offset _ | isolation _ | lock _ =>
        exact visible
  · exact visible

/-- A query in a bound expression is that of a statement in the term. -/
theorem query_leaf_of_bindTerm {term : Term} {expr : Expr} {nested : Query}
    (binds : select.bindTerm term = .ok expr) (leaf : .query nested ∈ expr.leaves) :
    ∃ inner ∈ term.selects, inner.result = .ok nested := by
  simp only [bindTerm, except_bind_ok] at binds
  obtain ⟨_, _, assembled, assembles, binds⟩ := binds
  obtain ⟨original, known, leafBinds⟩ := assembled.bind_leaves binds _ leaf
  have unbound := term.assemble_leaves assembles original known
  cases original with
  | query _ =>
      cases leafBinds
      exact unbound
  | column _ =>
      simp only [Leaf.bind, except_bind_ok, except_pure_ok] at leafBinds
      obtain ⟨_, _, same⟩ := leafBinds
      cases same

namespace Fits

theorem start {scope : Scope} {source : Source}
    (placed : source.relation.PlacedIn origin (scope.plus source.alias).visible) :
    (Select.start scope source).Fits origin := by
  constructor
  · intro expr member
    simp [Select.start, Query.ofSource, Query.exprs] at member
  · intro other member
    cases List.mem_singleton.mp member
    exact placed
  · intro operand member
    simp [Select.start, Query.ofSource] at member

theorem apply (fits : select.Fits origin) {step : Step}
    (placed : step.PlacedIn origin select.scope) : (select.apply step).Fits origin := by
  have widens : ∀ handle ∈ select.scope.visible, handle ∈ (select.apply step).scope.visible :=
    fun _ visible => visible_apply step visible
  constructor
  case exprs =>
    apply forall_exprs_apply
    case old =>
      intro expr member nested leaf
      exact (fits.exprs expr member nested leaf).mono widens
    case bound =>
      intro term expr takes binds nested leaf
      obtain ⟨inner, inTerm, finished⟩ := query_leaf_of_bindTerm binds leaf
      obtain ⟨known, inSight⟩ := placed.term takes inner inTerm
      exact ⟨inner, known, finished, fun handle outer => widens handle (inSight handle outer)⟩
    case joined =>
      intro connective left right leftHolds rightHolds nested leaf
      rcases List.mem_append.mp leaf with leaf | leaf
      · exact leftHolds nested leaf
      · exact rightHolds nested leaf
  case sources =>
    intro source member
    rcases mem_sources_apply member with old | ⟨kind, rfl⟩
    · exact (fits.sources source old).mono widens
    · exact Relation.PlacedIn.mono placed widens
  case operands =>
    intro operand member
    rw [enclosing_apply]
    rcases mem_operands_apply member with old | ⟨other, rfl, finished⟩
    · exact fits.operands operand old
    · exact ⟨other, placed.1, finished, placed.2⟩

end Fits

theorem Placed.fits (placed : select.Placed origin) : select.Fits origin := by
  induction placed with
  | outermost database relation =>
      exact .start (relation.mono fun _ impossible => absurd impossible List.not_mem_nil)
  | nested scope relation =>
      apply Fits.start
      apply relation.mono
      intro handle visible
      exact List.mem_append_right _ visible
  | step _ step ih => exact ih.apply step

/-- If every statement is used where it may be, the queries within one are those of statements
that find around them whatever was there when they were started. -/
theorem placedIn_of_holdsIn (origins : ∀ inner, origin inner → inner.Placed origin)
    (known : origin select) (fine : select.failure = none) (outermost : select.InSight [])
    {levels : List (List Alias)} {nested : Query} (holds : select.query.HoldsIn levels nested) :
    nested.PlacedIn origin levels.flatten := by
  -- What is in sight in a statement is in sight where it is used.
  have around {middle : Select} {levels : List (List Alias)} (isOrigin : origin middle)
      (inSight : middle.InSight levels.flatten) :
      ∀ handle ∈ middle.scope.visible, handle ∈ (middle.query.aliases :: levels).flatten := by
    intro handle visible
    rw [← (origins middle isOrigin).built.sound.nearest]
    rcases List.mem_append.mp visible with own | outer
    · exact List.mem_append_left _ own
    · exact List.mem_append_right _ (inSight handle outer)
  induction holds with
  | self =>
      refine ⟨select, known, ?_, outermost⟩
      simp [result, proceed, fine, bind, Except.bind, pure, Except.pure]
  | inExpr _ member leaf ih =>
      obtain ⟨middle, isOrigin, finished, inSight⟩ := ih
      obtain ⟨_, rfl⟩ := result_eq_ok finished
      have placed := (origins middle isOrigin).fits.exprs _ member _ leaf
      exact placed.mono (around isOrigin inSight)
  | derived _ member ih =>
      obtain ⟨middle, isOrigin, finished, inSight⟩ := ih
      obtain ⟨_, rfl⟩ := result_eq_ok finished
      have placed := (origins middle isOrigin).fits.sources _ member
      exact placed.mono (around isOrigin inSight)
  | common _ member ih =>
      obtain ⟨middle, isOrigin, finished, _⟩ := ih
      obtain ⟨_, rfl⟩ := result_eq_ok finished
      exact (origins middle isOrigin).fits.sources _ member
  | operand _ member ih =>
      obtain ⟨middle, isOrigin, finished, inSight⟩ := ih
      obtain ⟨_, rfl⟩ := result_eq_ok finished
      have placed := (origins middle isOrigin).fits.operands _ member
      exact placed.mono inSight

end Select

end SqlSelect
