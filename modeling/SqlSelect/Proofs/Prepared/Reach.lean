import SqlSelect.Proofs.Prepared.Mention

/-!
# Common tables that a query reaches

A query names a common table where it is written as a source, however deeply nested.
It reaches those it names, and those that the queries behind them name in turn.
Trees are finite, so that no common table is reached from its own query.
-/

namespace SqlSelect

namespace Mention

/-- A mention holds, with each common table, just what the query behind it mentions. -/
inductive Made (clauses : WindowClauses) : Mention → Prop where
  | argument (value : Value) : Made clauses (.argument value)
  | statement (operator : Option SetOperator) (query : Query) :
      Made clauses (.statement operator query)
  | common (handle : Alias) (query : Query) :
      (∀ mention ∈ query.mentions clauses, Made clauses mention) →
      Made clauses (.common handle query (query.mentions clauses))

/-- All of some mentions are made from their queries. -/
def AllMade (clauses : WindowClauses) (mentions : List Mention) : Prop :=
  ∀ mention ∈ mentions, Made clauses mention

variable {clauses : WindowClauses}

@[simp] theorem allMade_nil : AllMade clauses [] := by
  intro mention member
  cases member

@[simp] theorem allMade_cons (mention : Mention) (rest : List Mention) :
    AllMade clauses (mention :: rest) ↔ Made clauses mention ∧ AllMade clauses rest :=
  List.forall_mem_cons

@[simp] theorem allMade_append (left right : List Mention) :
    AllMade clauses (left ++ right) ↔ AllMade clauses left ∧ AllMade clauses right :=
  List.forall_mem_append

theorem Made.inner {handle : Alias} {query : Query} {mentions : List Mention}
    (made : Made clauses (.common handle query mentions)) :
    mentions = query.mentions clauses ∧ AllMade clauses mentions := by
  cases made with
  | common _ _ all => exact ⟨rfl, all⟩

end Mention

open Mention in
mutual

theorem Expr.allMade (clauses : WindowClauses) (expr : Expr) :
    AllMade clauses (expr.mentions clauses) := by
  cases expr with
  | argument value => simp [Expr.mentions, Made.argument]
  | literal value =>
      rw [Expr.mentions]
      split
      · exact allMade_nil
      · simp [Made.argument]
  | column _ => exact allMade_nil
  | not operand => exact operand.allMade clauses
  | negate operand => exact operand.allMade clauses
  | binary _ left right =>
      exact (allMade_append _ _).mpr ⟨left.allMade clauses, right.allMade clauses⟩
  | between _ operand low high =>
      simp [Expr.mentions, operand.allMade clauses, low.allMade clauses, high.allMade clauses]
  | like _ operand pattern =>
      exact (allMade_append _ _).mpr ⟨operand.allMade clauses, pattern.allMade clauses⟩
  | inList _ operand items =>
      exact (allMade_append _ _).mpr ⟨operand.allMade clauses, Expr.listAllMade clauses items⟩
  | inQuery _ operand query =>
      simp [Expr.mentions, Made.statement, operand.allMade clauses, query.allMade clauses]
  | «exists» _ query => simp [Expr.mentions, Made.statement, query.allMade clauses]
  | isNull _ operand => exact operand.allMade clauses
  | call _ _ arguments => exact Expr.listAllMade clauses arguments
  | countAll => exact allMade_nil
  | cast operand _ => exact operand.allMade clauses
  | window _ arguments partition order =>
      have argumentsMade := Expr.listAllMade clauses arguments
      have partitionMade := Expr.listAllMade clauses partition
      have orderMade := Expr.orderAllMade clauses order
      simp only [Expr.mentions, allMade_append]
      refine ⟨argumentsMade, ?_, ?_⟩
      · split
        · exact partitionMade
        · exact allMade_nil
      · split
        · exact orderMade
        · exact allMade_nil
  | subquery query => simp [Expr.mentions, Made.statement, query.allMade clauses]
  | case branches otherwise =>
      exact (allMade_append _ _).mpr
        ⟨Expr.branchAllMade clauses branches, Expr.optionAllMade clauses otherwise⟩

theorem Expr.listAllMade (clauses : WindowClauses) (exprs : List Expr) :
    AllMade clauses (Expr.listMentions clauses exprs) := by
  cases exprs with
  | nil => exact allMade_nil
  | cons expr rest =>
      exact (allMade_append _ _).mpr ⟨expr.allMade clauses, Expr.listAllMade clauses rest⟩

theorem Expr.orderAllMade (clauses : WindowClauses) (items : List (OrderItem Expr)) :
    AllMade clauses (Expr.orderMentions clauses items) := by
  cases items with
  | nil => exact allMade_nil
  | cons item rest =>
      cases item with
      | mk expr _ =>
          exact (allMade_append _ _).mpr ⟨expr.allMade clauses, Expr.orderAllMade clauses rest⟩

theorem Expr.branchAllMade (clauses : WindowClauses) (branches : List (Branch Expr)) :
    AllMade clauses (Expr.branchMentions clauses branches) := by
  cases branches with
  | nil => exact allMade_nil
  | cons branch rest =>
      cases branch with
      | mk condition result =>
          simp [Expr.branchMentions, condition.allMade clauses, result.allMade clauses,
            Expr.branchAllMade clauses rest]

theorem Expr.optionAllMade (clauses : WindowClauses) (expr : Option Expr) :
    AllMade clauses (Expr.optionMentions clauses expr) := by
  cases expr with
  | none => exact allMade_nil
  | some expr => exact expr.allMade clauses

theorem Source.allMade (clauses : WindowClauses) (source : Source) :
    AllMade clauses (source.mentions clauses) := by
  cases source with
  | mk handle relation =>
      cases relation with
      | table => exact allMade_nil
      | temporary => exact allMade_nil
      | derived query => simp [Source.mentions, Made.statement, query.allMade clauses]
      | common query =>
          have made := Made.common handle query (query.allMade clauses)
          simpa [Source.mentions] using made

theorem Query.joinAllMade (clauses : WindowClauses) (joins : List Join) :
    AllMade clauses (Query.joinMentions clauses joins) := by
  cases joins with
  | nil => exact allMade_nil
  | cons join rest =>
      cases join with
      | mk _ source on =>
          simp [Query.joinMentions, source.allMade clauses, Expr.optionAllMade clauses on,
            Query.joinAllMade clauses rest]

theorem Query.projectionAllMade (clauses : WindowClauses) (projections : List Projection) :
    AllMade clauses (Query.projectionMentions clauses projections) := by
  cases projections with
  | nil => exact allMade_nil
  | cons projection rest =>
      cases projection with
      | mk expr _ =>
          exact (allMade_append _ _).mpr
            ⟨expr.allMade clauses, Query.projectionAllMade clauses rest⟩

theorem Query.operandAllMade (clauses : WindowClauses) (operands : List Operand) :
    AllMade clauses (Query.operandMentions clauses operands) := by
  cases operands with
  | nil => exact allMade_nil
  | cons operand rest =>
      cases operand with
      | mk operator query =>
          simp [Query.operandMentions, Made.statement, query.allMade clauses,
            Query.operandAllMade clauses rest]

/-- The walk over a tree makes every mention from the query behind it. -/
theorem Query.allMade (clauses : WindowClauses) (query : Query) :
    AllMade clauses (query.mentions clauses) := by
  cases query with
  | mk distinct projection source joins filter groupBy having operands orderBy fetchFirst
      offset isolation lock =>
      simp [Query.mentions, Query.projectionAllMade clauses projection,
        source.allMade clauses, Query.joinAllMade clauses joins,
        Expr.optionAllMade clauses filter, Expr.listAllMade clauses groupBy,
        Expr.optionAllMade clauses having, Query.operandAllMade clauses operands,
        Expr.orderAllMade clauses orderBy]

end

/-! ## Naming and reaching -/

/-- A query names a common table in what is written for it, at any depth of nesting. -/
def Query.Names (clauses : WindowClauses) (query : Query) (common : CommonQuery) : Prop :=
  ∃ mentions, .common common.alias common.query mentions ∈ query.mentions clauses

/-- A query reaches the common tables that it names, and those that the query of a
reached common table names. -/
inductive Query.Reaches (clauses : WindowClauses) (query : Query) : CommonQuery → Prop where
  | named {common : CommonQuery} : query.Names clauses common → Reaches clauses query common
  | through {middle common : CommonQuery} :
      Reaches clauses query middle → middle.query.Names clauses common →
      Reaches clauses query common

namespace Query

variable {clauses : WindowClauses}

theorem Reaches.trans {query : Query} {middle common : CommonQuery}
    (first : query.Reaches clauses middle) (second : middle.query.Reaches clauses common) :
    query.Reaches clauses common := by
  induction second with
  | named names => exact .through first names
  | through _ names ih => exact .through ih names

/-- A common table is reached as soon as it is named, or else through the first common
table on the way. -/
theorem reaches_iff_names_or {query : Query} {common : CommonQuery} :
    query.Reaches clauses common ↔
      ∃ first, query.Names clauses first ∧
        (common = first ∨ first.query.Reaches clauses common) := by
  constructor
  · intro reaches
    induction reaches with
    | named names => exact ⟨_, names, .inl rfl⟩
    | through _ names ih =>
        obtain ⟨first, firstNamed, rfl | reaches⟩ := ih
        · exact ⟨_, firstNamed, .inr (.named names)⟩
        · exact ⟨first, firstNamed, .inr (.through reaches names)⟩
  · rintro ⟨first, names, rfl | reaches⟩
    · exact .named names
    · exact (Reaches.named names).trans reaches

theorem sizeOf_mentions_lt_of_reaches {query : Query} {common : CommonQuery}
    (reaches : query.Reaches clauses common) :
    sizeOf (common.query.mentions clauses) < sizeOf (query.mentions clauses) := by
  have step {outer : Query} {inner : CommonQuery} (names : outer.Names clauses inner) :
      sizeOf (inner.query.mentions clauses) < sizeOf (outer.mentions clauses) := by
    obtain ⟨mentions, member⟩ := names
    have smaller := List.sizeOf_lt_of_mem member
    cases outer.allMade clauses _ member with
    | common _ _ _ =>
        simp only [Mention.common.sizeOf_spec] at smaller
        omega
  induction reaches with
  | named names => exact step names
  | through _ names ih => exact Nat.lt_trans (step names) ih

/-- No common table is reached from its own query. -/
theorem not_reaches_self (common : CommonQuery) : ¬ common.query.Reaches clauses common :=
  fun reaches => Nat.lt_irrefl _ (sizeOf_mentions_lt_of_reaches reaches)

end Query

end SqlSelect
