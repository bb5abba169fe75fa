import SqlSelect.Proofs.Building.Incremental
import SqlSelect.Proofs.Building.WellFormed

/-!
# Judging the condition of a join

The condition of a join has to mention the alias it joins.  A statement judges it when the
first piece is taken, by that piece alone.  A condition that is taken as a whole is therefore
judged right; one that is taken piece by piece is refused wherever its first piece does not
mention the alias, also if a later piece does.
-/

namespace SqlSelect

/-- Some column of an expression, outside its sub-queries, is bound to an alias. -/
def Expr.RefersTo (handle : Alias) (expr : Expr) : Prop :=
  ∃ column, .column (.resolved column) ∈ expr.leaves ∧ column.alias.same handle = true

/-- A statement has no failure if the condition of its join `mentions` the alias it joins,
and fails for that alias if it does not. -/
structure Select.JudgedBy (handle : Alias) (mentions : Prop) (select : Select) : Prop where
  accepted : select.failure = none ↔ mentions
  refused : select.failure = some (.invalidJoin handle) ↔ ¬ mentions

variable {handle : Alias} {scope : Scope} {select : Select} {first condition : Term}
  {more : List (Connective × Term)} {head : Expr} {tail : List (Connective × Expr)}

namespace Expr

theorem refersTo_binary {operator : BinaryOperator} {left right : Expr} :
    (binary operator left right).RefersTo handle ↔
      left.RefersTo handle ∨ right.RefersTo handle := by
  simp only [RefersTo, leaves, List.mem_append, or_and_right, exists_or]

/-- A chain mentions an alias wherever one of its pieces does. -/
theorem refersTo_chain (head : Expr) (tail : List (Connective × Expr)) :
    (head.chain tail).RefersTo handle ↔
      head.RefersTo handle ∨ ∃ piece ∈ tail, piece.2.RefersTo handle := by
  induction tail generalizing head with
  | nil => simp [chain]
  | cons piece rest ih =>
      rw [chain, List.foldl_cons, ← chain, ih, refersTo_binary, or_assoc]
      simp only [List.mem_cons, exists_eq_or_imp]

end Expr

namespace Select

theorem JudgedBy.of_fine {mentions : Prop} (fine : select.failure = none) (holds : mentions) :
    select.JudgedBy handle mentions :=
  ⟨iff_of_true fine holds, by simp [fine, holds]⟩

theorem JudgedBy.of_failure {mentions : Prop}
    (failed : select.failure = some (.invalidJoin handle)) (fails : ¬ mentions) :
    select.JudgedBy handle mentions :=
  ⟨by simp [failed, fails], iff_of_true failed fails⟩

/-- A statement right behind a join, with the source that it joins. -/
structure Joins (select : Select) (handle : Alias) : Prop where
  fine : select.failure = none
  awaiting : select.stage = .awaitingOn
  last : ∃ join, select.query.joins.getLast? = some join ∧ join.source.alias = handle

theorem joins_apply_join (fine : select.failure = none) {kind : JoinKind} (source : Source)
    (conditional : kind ≠ .cross) (open? : select.stage.mayJoin = true) :
    (select.apply (.join kind source)).Joins source.alias := by
  have allowed : (Step.join kind source).next? select.stage = some .awaitingOn :=
    Step.next?_eq_awaitingOn.mpr ⟨kind, source, rfl, conditional, open?⟩
  rw [apply_of_next? allowed]
  exact ⟨fine, rfl, ⟨kind, source, none⟩, List.getLast?_concat, rfl⟩

namespace Joins

variable (joins : select.Joins handle)

include joins

theorem allowed (condition : Term) : (Step.on condition).next? select.stage = some .inOn := by
  rw [joins.awaiting]
  rfl

/-- The condition that opens is written if it mentions the alias that is joined. -/
theorem apply_on {expr : Expr} (binds : condition.bound select.scope = .ok expr)
    (mentions : expr.RefersTo handle) :
    select.apply (.on condition) = select.holding .on expr := by
  obtain ⟨join, last, rfl⟩ := joins.last
  have references := Expr.references_iff.mpr mentions
  rw [apply_of_next? (joins.allowed condition)]
  simp only [edit, bindTerm_of_fine joins.fine, binds, Query.joinOn, last, references, if_true,
    bind, Except.bind, amend]
  rfl

/-- The condition that opens is judged on its own. -/
theorem judged_on {expr : Expr} (binds : condition.bound select.scope = .ok expr) :
    (select.apply (.on condition)).JudgedBy handle (expr.RefersTo handle) := by
  by_cases mentions : expr.RefersTo handle
  · refine .of_fine ?_ mentions
    rw [joins.apply_on binds mentions]
    exact joins.fine
  · refine .of_failure ?_ mentions
    obtain ⟨join, last, rfl⟩ := joins.last
    have references : ¬ expr.references join.source.alias = true :=
      fun references => mentions (Expr.references_iff.mp references)
    rw [failure_apply_of_term joins.fine (joins.allowed condition) rfl, binds]
    simp [bind, Except.bind, Step.write, Query.joinOn, last, references]

/-- The pieces behind the first are not judged. -/
theorem pieced_on (binds : first.bound select.scope = .ok head)
    (moreBinds : Term.boundPieces select.scope more = .ok tail) (mentions : head.RefersTo handle) :
    select.pieced .on first more = select.holding .on (head.chain tail) := by
  have taken := run_extend joins.fine .on head more
  rw [moreBinds] at taken
  rw [pieced, Clause.opening, run_cons, joins.apply_on binds mentions]
  exact taken

theorem judged_pieced (binds : first.bound select.scope = .ok head)
    (moreBinds : Term.boundPieces select.scope more = .ok tail) :
    (select.pieced .on first more).JudgedBy handle (head.RefersTo handle) := by
  by_cases mentions : head.RefersTo handle
  · refine .of_fine ?_ mentions
    rw [joins.pieced_on binds moreBinds mentions]
    exact joins.fine
  · refine .of_failure ?_ mentions
    exact failure_run_of_some ((joins.judged_on binds).refused.mpr mentions) _

end Joins

/-! ## Both ways -/

/-- What becomes of the condition of a join, taken piece by piece or as a whole, where `head`
and `tail` are the expressions of its pieces. -/
structure JudgesJoin (select : Select) (handle : Alias) (first : Term)
    (more : List (Connective × Term)) (head : Expr) (tail : List (Connective × Expr)) :
    Prop where
  /-- The condition mentions the alias in its first piece or in a later one. -/
  mentions : (head.chain tail).RefersTo handle ↔
    head.RefersTo handle ∨ ∃ piece ∈ tail, piece.2.RefersTo handle
  /-- A condition that is taken as a whole is judged by all of its pieces. -/
  whole : (select.whole .on first more).JudgedBy handle ((head.chain tail).RefersTo handle)
  /-- A condition that is taken piece by piece is judged by the first one. -/
  pieced : (select.pieced .on first more).JudgedBy handle (head.RefersTo handle)
  /-- So whoever accepts the first piece accepts the condition, and has the same statement. -/
  same : (select.pieced .on first more).failure = none →
    select.pieced .on first more = select.whole .on first more
  /-- Both verdicts agree, unless only a later piece mentions the alias. -/
  agree : (select.pieced .on first more).failure = (select.whole .on first more).failure ↔
    head.RefersTo handle ∨ ∀ piece ∈ tail, ¬ piece.2.RefersTo handle

theorem join_judged (fine : select.failure = none) {kind : JoinKind} (conditional : kind ≠ .cross)
    (open? : select.stage.mayJoin = true) (source : Source)
    (binds : first.bound (select.scope.plus source.alias) = .ok head)
    (moreBinds : Term.boundPieces (select.scope.plus source.alias) more = .ok tail) :
    (select.apply (.join kind source)).JudgesJoin source.alias first more head tail := by
  have joins := joins_apply_join fine source conditional open?
  have scope : (select.apply (.join kind source)).scope = select.scope.plus source.alias :=
    scope_apply (Step.next?_eq_awaitingOn.mpr ⟨kind, source, rfl, conditional, open?⟩)
  rw [← scope] at binds moreBinds
  have chainBinds := Term.bound_chain.mpr ⟨head, tail, binds, moreBinds, rfl⟩
  have mentions : (head.chain tail).RefersTo source.alias ↔ _ := Expr.refersTo_chain head tail
  have whole := joins.judged_on chainBinds
  have pieced := joins.judged_pieced binds moreBinds
  refine ⟨mentions, whole, pieced, fun accepted => ?_, ?_⟩
  · have inFirst := pieced.accepted.mp accepted
    rw [joins.pieced_on binds moreBinds inFirst]
    exact (joins.apply_on chainBinds (mentions.mpr (.inl inFirst))).symm
  · by_cases inFirst : head.RefersTo source.alias
    · have accepted := whole.accepted.mpr (mentions.mpr (.inl inFirst))
      exact iff_of_true ((pieced.accepted.mpr inFirst).trans accepted.symm) (.inl inFirst)
    · rw [pieced.refused.mpr inFirst, eq_comm]
      refine whole.refused.trans ?_
      simp [mentions, inFirst]

end Select

namespace Sample

/-- A condition on the parent alone. -/
def firstborn : Term :=
  .binary .equal (.column person key (.only parent)) (.value (.bigInt 1))

/-- A condition on the partner and the parent. -/
def paired : Term :=
  .binary .equal (.column person key (.only partner)) (.column person key (.only parent))

/-- Everyone with a partner, where the condition on the two is still awaited. -/
def partnered : Select :=
  everyone.apply (.join .inner (.ofTable partner))

/-- The expression of `firstborn`. -/
def firstbornExpr : Expr :=
  .binary .equal (.column (.resolved ⟨parent, person.info key⟩)) (.argument (.integer 1))

/-- The expression of `paired`. -/
def pairedExpr : Expr :=
  .binary .equal (.column (.resolved ⟨partner, person.info key⟩))
    (.column (.resolved ⟨parent, person.info key⟩))

theorem partnered_judged :
    everyone.failure = none ∧ JoinKind.inner ≠ .cross ∧ everyone.stage.mayJoin = true ∧
      paired.bound (everyone.scope.plus partner) = .ok pairedExpr ∧
      Term.boundPieces (everyone.scope.plus partner) [(.and, firstborn)] =
        .ok [(.and, firstbornExpr)] ∧
      partnered.JudgesJoin partner paired [(.and, firstborn)] pairedExpr
        [(.and, firstbornExpr)] := by
  have fine : everyone.failure = none := by rfl
  have conditional : JoinKind.inner ≠ .cross := by decide
  have open? : everyone.stage.mayJoin = true := by rfl
  have binds : paired.bound (everyone.scope.plus partner) = .ok pairedExpr := by rfl
  have moreBinds : Term.boundPieces (everyone.scope.plus partner) [(.and, firstborn)] =
      .ok [(.and, firstbornExpr)] := by rfl
  exact ⟨fine, conditional, open?, binds, moreBinds,
    Select.join_judged fine conditional open? (.ofTable partner) binds moreBinds⟩

/-- With the piece on the partner behind the other one, the condition is refused piece by
piece although it mentions the partner.  It is accepted as a whole, and piece by piece in
the other order. -/
theorem mentioned_late :
    firstborn.bound partnered.scope = .ok firstbornExpr ∧
      Term.boundPieces partnered.scope [(.and, paired)] = .ok [(.and, pairedExpr)] ∧
      ¬ ((partnered.pieced .on firstborn [(.and, paired)]).failure =
          some (.invalidJoin partner) ↔
        ¬ (firstbornExpr.chain [(.and, pairedExpr)]).RefersTo partner) ∧
      (partnered.whole .on firstborn [(.and, paired)]).failure = none ∧
      (partnered.pieced .on paired [(.and, firstborn)]).failure = none := by
  have mentions : (firstbornExpr.chain [(.and, pairedExpr)]).RefersTo partner :=
    Expr.references_iff.mp (by rfl)
  have refused : (partnered.pieced .on firstborn [(.and, paired)]).failure =
      some (.invalidJoin partner) := by rfl
  refine ⟨by rfl, by rfl, ?_, by rfl, by rfl⟩
  intro verdict
  exact verdict.mp refused mentions

end Sample

end SqlSelect
