import SqlSelect.Proofs.Building.Change
import SqlSelect.Proofs.Building.Assembly

/-!
# Finished statements are well-formed

A join stands in the query before its condition does, and an IN list is assembled before
it is known to have items.  Neither gets out half made: a stage tells whether the last join
still waits for its condition, and a failure is never followed by a finished query.
-/

namespace SqlSelect

/-- The lists of an expression that may not be empty are not. -/
def Expr.Filled : Expr → Prop
  | .inList _ _ items => items ≠ []
  | .case branches _ => branches ≠ []
  | _ => True

/-- Every expression within an expression, outside its sub-queries, is filled. -/
def Expr.WellFormed (expr : Expr) : Prop :=
  ∀ part, expr.Contains .all part → part.Filled

/-- A join has a condition on the alias it joins, but a cross join has none. -/
def Join.WellFormed (join : Join) : Prop :=
  match join.kind with
  | .cross => join.on = none
  | .inner | .left | .right | .full =>
    ∃ on, join.on = some on ∧
      ∃ column, .column (.resolved column) ∈ on.leaves ∧
        column.alias.same join.source.alias = true

/-- Every expression and every join of a query is well-formed. -/
structure Query.WellFormed (query : Query) : Prop where
  exprs : ∀ expr ∈ query.exprs, expr.WellFormed
  joins : ∀ join ∈ query.joins, join.WellFormed

/-! ## Expressions -/

namespace Expr

theorem wellFormed_iff {expr : Expr} :
    expr.WellFormed ↔ expr.Filled ∧ ∀ part ∈ expr.parts .all, part.WellFormed := by
  constructor
  · intro wellFormed
    refine ⟨wellFormed expr .self, fun part member inner contains => ?_⟩
    exact wellFormed inner (contains_iff.mpr (.inr ⟨part, member, contains⟩))
  · rintro ⟨filled, parts⟩ inner contains
    rcases contains_iff.mp contains with rfl | ⟨part, member, contains⟩
    · exact filled
    · exact parts part member inner contains

theorem WellFormed.binary {left right : Expr} (leftWellFormed : left.WellFormed)
    (rightWellFormed : right.WellFormed) (operator : BinaryOperator) :
    (Expr.binary operator left right).WellFormed := by
  rw [wellFormed_iff]
  refine ⟨trivial, fun part member => ?_⟩
  simp only [parts, List.mem_cons, List.not_mem_nil, or_false] at member
  rcases member with rfl | rfl
  · exact leftWellFormed
  · exact rightWellFormed

theorem Filled.mapColumns {change : ColumnReference → ColumnReference} {expr : Expr}
    (filled : expr.Filled) : (expr.mapColumns change).Filled := by
  cases expr with
  | inList _ _ items =>
      intro empty
      rw [listMapColumns_eq] at empty
      exact filled (List.map_eq_nil_iff.mp empty)
  | case branches _ =>
      intro empty
      rw [branchMapColumns_eq] at empty
      exact filled (List.map_eq_nil_iff.mp empty)
  | _ => trivial

theorem WellFormed.mapColumns {change : ColumnReference → ColumnReference} {expr : Expr}
    (wellFormed : expr.WellFormed) : (expr.mapColumns change).WellFormed := by
  induction expr using induction_on_parts with
  | step expr ih =>
      obtain ⟨filled, parts⟩ := wellFormed_iff.mp wellFormed
      rw [wellFormed_iff, parts_mapColumns]
      refine ⟨filled.mapColumns, fun part member => ?_⟩
      obtain ⟨original, known, rfl⟩ := List.mem_map.mp member
      exact ih original known (parts original known)

theorem WellFormed.bind {scope : Scope} {expr bound : Expr} (wellFormed : expr.WellFormed)
    (binds : expr.bind scope = .ok bound) : bound.WellFormed := by
  rw [(bind_eq_ok_iff.mp binds).2]
  exact wellFormed.mapColumns

end Expr

namespace Term

/-- A term is assembled to a filled expression, or to that of its only part. -/
theorem filled_of_assemble {term : Term} {expr : Expr} (assembles : term.assemble = .ok expr) :
    (∃ operand ∈ term.parts, operand.assemble = .ok expr) ∨ expr.Filled := by
  cases term with
  | nullable operand => exact .inl ⟨operand, List.mem_singleton.mpr rfl, assembles⟩
  | inList _ operand items =>
      simp only [assemble, except_bind_ok] at assembles
      obtain ⟨_, _, made, _, rest⟩ := assembles
      split at rest
      case isTrue => cases rest
      case isFalse filled =>
        cases rest
        exact .inr fun empty => filled (List.isEmpty_iff.mpr empty)
  | case first rest otherwise =>
      cases first with
      | mk condition result =>
          simp only [assemble, except_bind_ok, except_pure_ok] at assembles
          obtain ⟨_, _, _, _, _, _, _, _, rfl⟩ := assembles
          exact .inr (List.cons_ne_nil _ _)
  | column _ _ _ | value _ | literal _ | countAll =>
      cases assembles
      exact .inr trivial
  | optional _ scalar =>
      cases scalar <;> cases assembles <;> exact .inr trivial
  | not _ | negate _ | isNull _ _ | cast _ _ _ | inSelect _ _ _ | «exists» _ _ | subquery _
  | binary _ _ _ | like _ _ _ | between _ _ _ _ | call _ _ _ | window _ _ _ _ =>
      simp only [assemble, except_bind_ok, except_pure_ok] at assembles
      grind [Expr.Filled]

theorem wellFormed_of_assemble {term : Term} {expr : Expr}
    (assembles : term.assemble = .ok expr) : expr.WellFormed := by
  induction term using induction_on_parts generalizing expr with
  | step term ih =>
      rcases filled_of_assemble assembles with ⟨operand, member, same⟩ | filled
      · exact ih operand member same
      · rcases assemble_parts assembles with ⟨operand, member, same⟩ | parts
        · exact ih operand member same
        · rw [Expr.wellFormed_iff]
          refine ⟨filled, fun part member => ?_⟩
          obtain ⟨original, known, assembles⟩ := parts part member
          exact ih original known assembles

end Term

/-! ## Joins -/

namespace Join

variable {join : Join}

theorem wellFormed_of_references (conditional : join.kind ≠ .cross) {on : Expr}
    (references : on.references join.source.alias = true) :
    WellFormed { join with on := some on } := by
  have column := Expr.references_iff.mp references
  rw [WellFormed]
  split
  · contradiction
  all_goals exact ⟨on, rfl, column⟩

theorem WellFormed.references (wellFormed : join.WellFormed) (conditional : join.kind ≠ .cross) :
    ∃ on, join.on = some on ∧ on.references join.source.alias = true := by
  rw [WellFormed] at wellFormed
  split at wellFormed
  · contradiction
  all_goals
    obtain ⟨on, condition, column⟩ := wellFormed
    exact ⟨on, condition, Expr.references_iff.mpr column⟩

end Join

/-- How the joins of a query stand at a stage.  A complete statement has well-formed joins
only, and where a condition is expected or may go on, it is that of the last join. -/
structure Stage.Fits (stage : Stage) (joins : List Join) : Prop where
  complete : stage.isComplete = true → ∀ join ∈ joins, join.WellFormed
  pending : stage = .awaitingOn ∨ stage = .inOn →
    ∃ earlier last, joins = earlier ++ [last] ∧ last.kind ≠ .cross ∧
      ∀ join ∈ earlier, join.WellFormed

namespace Stage.Fits

variable {stage : Stage} {earlier : List Join} {last : Join}

theorem of_complete {joins : List Join} (wellFormed : ∀ join ∈ joins, join.WellFormed)
    (outside : stage ≠ .awaitingOn ∧ stage ≠ .inOn) : stage.Fits joins := by
  constructor
  · intro _
    exact wellFormed
  · rintro (rfl | rfl)
    · exact (outside.1 rfl).elim
    · exact (outside.2 rfl).elim

theorem awaitingOn (wellFormed : ∀ join ∈ earlier, join.WellFormed)
    (conditional : last.kind ≠ .cross) : Stage.awaitingOn.Fits (earlier ++ [last]) := by
  constructor
  · rintro ⟨⟩
  · intro _
    exact ⟨earlier, last, rfl, conditional, wellFormed⟩

theorem inOn (wellFormed : ∀ join ∈ earlier, join.WellFormed) (conditional : last.kind ≠ .cross)
    {on : Expr} (references : on.references last.source.alias = true) :
    Stage.inOn.Fits (earlier ++ [{ last with on := some on }]) := by
  constructor
  · intro _ join member
    rcases List.mem_append.mp member with known | new
    · exact wellFormed join known
    · rw [List.mem_singleton.mp new]
      exact Join.wellFormed_of_references conditional references
  · intro _
    exact ⟨earlier, { last with on := some on }, rfl, conditional, wellFormed⟩

end Stage.Fits

namespace Select

variable {origin : Select → Prop} {select : Select}

/-- The condition that a join waits for is accepted only if it is one on that join. -/
theorem fits_on (fits : select.stage.Fits select.query.joins) (awaiting : select.stage = .awaitingOn)
    {condition : Term} (fine : (select.apply (.on condition)).failure = none) :
    Stage.inOn.Fits (select.apply (.on condition)).query.joins := by
  obtain ⟨earlier, last, joins, conditional, settled⟩ := fits.pending (.inl awaiting)
  have allowed : (Step.on condition).next? select.stage = some .inOn :=
    Step.next?_eq_inOn.mpr (.inl ⟨condition, rfl, awaiting⟩)
  obtain ⟨expr, _, writes⟩ := writes_of_fine allowed rfl fine
  obtain ⟨references, changed⟩ := Query.joinOn_eq_ok joins writes
  rw [changed, Query.joins_mapLastOn joins]
  exact .inOn settled conditional references

/-- A condition that goes on still mentions what it did before. -/
theorem fits_extend (fits : select.stage.Fits select.query.joins) (within : select.stage = .inOn)
    {connective : Connective} {condition : Term}
    (fine : (select.apply (.extend connective condition)).failure = none) :
    Stage.inOn.Fits (select.apply (.extend connective condition)).query.joins := by
  obtain ⟨earlier, last, joins, conditional, settled⟩ := fits.pending (.inr within)
  have allowed : (Step.extend connective condition).next? select.stage = some .inOn :=
    Step.next?_eq_inOn.mpr (.inr ⟨connective, condition, rfl, within⟩)
  obtain ⟨expr, _, writes⟩ := writes_of_fine allowed rfl fine
  have lastWellFormed : last.WellFormed := by
    apply fits.complete
    · rw [within]
      rfl
    · rw [joins]
      exact List.mem_append_right earlier List.mem_cons_self
  obtain ⟨on, written, references⟩ := lastWellFormed.references conditional
  simp only [Step.write, within, Stage.clause?] at writes
  rw [← Except.ok.inj writes, Query.extendClause, Query.joins_mapLastOn joins, written]
  apply Stage.Fits.inOn settled conditional
  rw [Query.extendCondition, Expr.references, references, Bool.true_or]

/-- A step that fails at nothing leaves the joins as its stage needs them. -/
theorem fits_apply (fits : select.stage.Fits select.query.joins) {step : Step}
    (fine : (select.apply step).failure = none) :
    (select.apply step).stage.Fits (select.apply step).query.joins := by
  cases allowed : step.next? select.stage with
  | none =>
      rw [apply, allowed]
      exact fits
  | some stage =>
      have reached : (select.apply step).stage = stage := by rw [apply_of_next? allowed]
      rw [reached]
      cases stage with
      | joining =>
          obtain ⟨source, rfl, _⟩ := Step.next?_eq_joining.mp allowed
          have settled := fits.complete (Step.isComplete_of_next? allowed (by decide))
          rw [apply_of_next? allowed]
          apply Stage.Fits.of_complete
          · intro join member
            rcases List.mem_append.mp member with known | new
            · exact settled join known
            · rw [List.mem_singleton.mp new]
              rfl
          · decide
      | awaitingOn =>
          obtain ⟨kind, source, rfl, conditional, _⟩ := Step.next?_eq_awaitingOn.mp allowed
          have settled := fits.complete (Step.isComplete_of_next? allowed (by decide))
          rw [apply_of_next? allowed]
          exact .awaitingOn settled conditional
      | inOn =>
          rcases Step.next?_eq_inOn.mp allowed with ⟨condition, rfl, awaiting⟩ |
            ⟨connective, condition, rfl, within⟩
          · exact fits_on fits awaiting fine
          · exact fits_extend fits within fine
      | inProjection | inFilter | inGroupBy | inHaving | inOrderBy | inUnion | ended =>
          rw [joins_apply allowed (by decide)]
          apply Stage.Fits.of_complete
          · exact fits.complete (Step.isComplete_of_next? allowed (by decide))
          · decide

theorem Built.exprs_wellFormed (built : select.Built origin) :
    ∀ expr ∈ select.query.exprs, expr.WellFormed := by
  induction built with
  | outermost _ _ | nested _ _ =>
      intro expr member
      cases member
  | step _ _ ih =>
      apply forall_exprs_apply ih
      · intro term expr _ binds
        simp only [bindTerm, except_bind_ok] at binds
        obtain ⟨_, _, assembled, assembles, binds⟩ := binds
        exact (Term.wellFormed_of_assemble assembles).bind binds
      · intro connective left right leftWellFormed rightWellFormed
        exact leftWellFormed.binary rightWellFormed connective.operator

theorem Built.fits (built : select.Built origin) (fine : select.failure = none) :
    select.stage.Fits select.query.joins := by
  induction built with
  | outermost _ _ | nested _ _ =>
      apply Stage.Fits.of_complete
      · intro join member
        cases member
      · exact ⟨nofun, nofun⟩
  | step built _ ih => exact fits_apply (ih (fine_of_apply fine)) fine

theorem Built.wellFormed (built : select.Built origin) (complete : select.stage.isComplete = true)
    (fine : select.failure = none) : select.query.WellFormed :=
  ⟨built.exprs_wellFormed, (built.fits fine).complete complete⟩

/-- A complete statement without a failure is well-formed, and so is every query within it,
at any depth, as all of them were complete before they were used. -/
theorem Built.queries_wellFormed (origins : ∀ inner, origin inner → inner.Built origin)
    (finished : ∀ inner, origin inner → inner.stage.isComplete = true)
    (built : select.Built origin) (complete : select.stage.isComplete = true)
    (fine : select.failure = none) :
    select.query.WellFormed ∧ ∀ nested, select.query.Holds nested → nested.WellFormed := by
  refine ⟨built.wellFormed complete fine, fun nested holds => ?_⟩
  obtain ⟨inner, isOrigin, innerFine, rfl⟩ := built.origin_of_holds origins holds
  exact (origins inner isOrigin).wellFormed (finished inner isOrigin) innerFine

end Select

/-! ## A statement with a condition on its join -/

namespace Sample

/-- Some parents with a partner each, where the list, the branches and the condition of the
join all have to be there. -/
def couples : Select :=
  everyone.run
    [.join .left (.ofTable partner),
      .on (.binary .equal (.column person key (.only partner))
        (.column person key (.only parent))),
      .select (.case ⟨.isNull false (.column person key (.only partner)), .value (.bigInt 0)⟩ []
        (some (.column person key (.only partner)))) none,
      .filter (.inList false (.column person key (.only parent)) [.value (.bigInt 1)]),
      .extend .and (.exists false children)]

theorem couples_wellFormed :
    (∀ inner, inner = children → inner.Built (· = children)) ∧
      (∀ inner, inner = children → inner.stage.isComplete = true) ∧
      couples.Built (· = children) ∧ couples.stage.isComplete = true ∧ couples.failure = none ∧
      couples.query.WellFormed ∧ ∀ nested, couples.query.Holds nested → nested.WellFormed := by
  have origins : ∀ inner, inner = children → inner.Built (· = children) := by
    rintro _ rfl
    apply (Select.Built.nested everyone.scope (Source.from_ofTable child)).run
    simp [Step.From, Term.From, Term.selects]
  have finished : ∀ inner, inner = children → inner.stage.isComplete = true := by
    rintro _ rfl
    rfl
  have built : couples.Built (· = children) := by
    apply (Select.Built.outermost ⟨.sqlite, none⟩ (Source.from_ofTable parent)).run
    simp [Step.From, Term.From, Term.selects, Term.listSelects, Term.branchSelects,
      Term.optionSelects, Source.from_ofTable]
  have complete : couples.stage.isComplete = true := rfl
  have fine : couples.failure = none := rfl
  exact ⟨origins, finished, built, complete, fine,
    Select.Built.queries_wellFormed origins finished built complete fine⟩

end Sample

end SqlSelect
