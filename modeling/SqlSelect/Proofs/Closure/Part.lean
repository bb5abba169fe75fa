import SqlSelect.Proofs.Closure.Leaf
import SqlSelect.Proofs.Prepared.Mention

/-!
# Parts of an expression

An expression has parts, each an expression of its own, and may hold one query.  Window
lists are parts only where their clauses are written.  What is known of the parts of every
expression is known of all that an expression contains, however deep.
-/

namespace SqlSelect

/-- Every clause of a window. -/
def WindowClauses.all : WindowClauses := ⟨true, true⟩

/-! ## Outcomes of nested lists -/

/-- The condition of a branch, and its result. -/
def Branch.both {α : Type} (branch : Branch α) : List α :=
  [branch.condition, branch.result]

section Lists

variable {α β ε : Type} {make : α → Except ε β}

theorem mem_order_of_mapM {items : List (OrderItem α)} {results : List (OrderItem β)}
    (made : items.mapM (fun item =>
      return (⟨← make item.expr, item.descending⟩ : OrderItem β)) = .ok results) :
    ∀ result ∈ results.map OrderItem.expr,
      ∃ item ∈ items.map OrderItem.expr, make item = .ok result := by
  intro result member
  rcases List.mem_map.mp member with ⟨entry, known, rfl⟩
  rcases exists_of_mem_mapM made known with ⟨item, itemKnown, itemMade⟩
  simp only [except_bind_ok, except_pure_ok] at itemMade
  rcases itemMade with ⟨expr, exprMade, rfl⟩
  exact ⟨item.expr, List.mem_map_of_mem itemKnown, exprMade⟩

theorem mem_branches_of_mapM {branches : List (Branch α)} {results : List (Branch β)}
    (made : branches.mapM (fun branch =>
      return (⟨← make branch.condition, ← make branch.result⟩ : Branch β)) = .ok results) :
    ∀ result ∈ results.flatMap Branch.both,
      ∃ item ∈ branches.flatMap Branch.both, make item = .ok result := by
  intro result member
  rcases List.mem_flatMap.mp member with ⟨entry, known, member⟩
  rcases exists_of_mem_mapM made known with ⟨branch, branchKnown, branchMade⟩
  simp only [except_bind_ok, except_pure_ok] at branchMade
  rcases branchMade with ⟨condition, conditionMade, result, resultMade, rfl⟩
  simp only [Branch.both, List.mem_cons, List.not_mem_nil, or_false] at member
  rcases member with rfl | rfl
  · exact ⟨branch.condition, List.mem_flatMap.mpr ⟨branch, branchKnown, by simp [Branch.both]⟩,
      conditionMade⟩
  · exact ⟨branch.result, List.mem_flatMap.mpr ⟨branch, branchKnown, by simp [Branch.both]⟩,
      resultMade⟩

end Lists

namespace Expr

variable {clauses : WindowClauses}

/-- The expressions right within an expression, from left to right, so far as they are
written with some window clauses. -/
def parts (clauses : WindowClauses) : Expr → List Expr
  | .argument _ | .literal _ | .column _ | .countAll | .exists .. | .subquery _ => []
  | .not operand | .negate operand | .isNull _ operand | .cast operand _
  | .inQuery _ operand _ => [operand]
  | .binary _ left right => [left, right]
  | .between _ operand low high => [operand, low, high]
  | .like _ operand pattern => [operand, pattern]
  | .inList _ operand items => operand :: items
  | .call _ _ arguments => arguments
  | .window _ arguments partition order =>
    arguments ++ (if clauses.partition then partition else []) ++
      (if clauses.order then order.map OrderItem.expr else [])
  | .case branches otherwise =>
    branches.flatMap Branch.both ++ otherwise.toList

/-- The query right within an expression. -/
def query? : Expr → Option Query
  | .inQuery _ _ query | .exists _ query | .subquery query => some query
  | _ => none

theorem mem_parts_all {expr part : Expr} (member : part ∈ expr.parts clauses) :
    part ∈ expr.parts .all := by
  cases expr with
  | window function arguments partition order =>
      simp only [parts, List.mem_append] at member ⊢
      rcases member with (member | member) | member
      · exact .inl (.inl member)
      · split at member
        · exact .inl (.inr member)
        · cases member
      · split at member
        · exact .inr member
        · cases member
  | _ => exact member

theorem sizeOf_lt_of_mem_parts {expr part : Expr} (member : part ∈ expr.parts clauses) :
    sizeOf part < sizeOf expr := by
  have known := mem_parts_all member
  cases expr with
  | argument _ | literal _ | column _ | countAll | «exists» _ _ | subquery _ => cases known
  | not operand | negate operand | isNull _ operand | cast operand _ | inQuery _ operand _ =>
      rw [List.mem_singleton.mp known]
      simp +arith
  | binary _ left right | like _ left right =>
      simp only [parts, List.mem_cons, List.not_mem_nil, or_false] at known
      rcases known with rfl | rfl <;> simp +arith
  | between _ operand low high =>
      simp only [parts, List.mem_cons, List.not_mem_nil, or_false] at known
      rcases known with rfl | rfl | rfl <;> simp +arith
  | inList _ operand items =>
      rcases List.mem_cons.mp known with rfl | known
      · simp +arith
      · have smaller := List.sizeOf_lt_of_mem known
        simp only [inList.sizeOf_spec]
        omega
  | call _ _ arguments =>
      have smaller : sizeOf part < sizeOf arguments := List.sizeOf_lt_of_mem known
      simp only [call.sizeOf_spec]
      omega
  | window _ arguments partition order =>
      simp only [parts, WindowClauses.all, if_true, List.mem_append, List.mem_map] at known
      simp only [window.sizeOf_spec]
      rcases known with (known | known) | ⟨⟨ordering, descending⟩, known, rfl⟩
      · have smaller := List.sizeOf_lt_of_mem known
        omega
      · have smaller := List.sizeOf_lt_of_mem known
        omega
      · have smaller := List.sizeOf_lt_of_mem known
        simp only [OrderItem.mk.sizeOf_spec] at smaller ⊢
        omega
  | case branches otherwise =>
      simp only [parts, Branch.both, List.mem_append, List.mem_flatMap, List.mem_cons,
        List.not_mem_nil, or_false, Option.mem_toList] at known
      simp only [case.sizeOf_spec]
      rcases known with ⟨⟨condition, result⟩, known, rfl | rfl⟩ | known
      · have smaller := List.sizeOf_lt_of_mem known
        simp only [Branch.mk.sizeOf_spec] at smaller
        omega
      · have smaller := List.sizeOf_lt_of_mem known
        simp only [Branch.mk.sizeOf_spec] at smaller
        omega
      · cases known
        simp +arith

/-- What holds of an expression as soon as it holds of its parts holds of every
expression. -/
theorem induction_on_parts {motive : Expr → Prop}
    (step : ∀ expr, (∀ part ∈ expr.parts .all, motive part) → motive expr) (expr : Expr) :
    motive expr :=
  step expr fun part _ => induction_on_parts step part
termination_by sizeOf expr
decreasing_by exact sizeOf_lt_of_mem_parts ‹_›

/-- An expression is another, or stands among the parts of what that contains. -/
inductive Contains (clauses : WindowClauses) (expr : Expr) : Expr → Prop where
  | self : Contains clauses expr expr
  | part {middle part : Expr} :
      Contains clauses expr middle → part ∈ middle.parts clauses → Contains clauses expr part

theorem Contains.trans {expr middle part : Expr} (outer : expr.Contains clauses middle)
    (inner : middle.Contains clauses part) : expr.Contains clauses part := by
  induction inner with
  | self => exact outer
  | part _ member ih => exact ih.part member

theorem contains_iff {expr part : Expr} :
    expr.Contains clauses part ↔
      part = expr ∨ ∃ first ∈ expr.parts clauses, first.Contains clauses part := by
  constructor
  · intro contains
    induction contains with
    | self => exact .inl rfl
    | part _ member ih =>
        rcases ih with rfl | ⟨first, known, contains⟩
        · exact .inr ⟨_, member, .self⟩
        · exact .inr ⟨first, known, contains.part member⟩
  · rintro (rfl | ⟨first, member, contains⟩)
    · exact .self
    · exact (Contains.self.part member).trans contains

/-! ## Leaves of the parts -/

theorem listLeaves_eq (exprs : List Expr) : listLeaves exprs = exprs.flatMap leaves := by
  induction exprs with
  | nil => rfl
  | cons expr rest ih => rw [listLeaves, ih, List.flatMap_cons]

theorem orderLeaves_eq (items : List (OrderItem Expr)) :
    orderLeaves items = (items.map OrderItem.expr).flatMap leaves := by
  induction items with
  | nil => rfl
  | cons item rest ih => rw [orderLeaves, ih, List.map_cons, List.flatMap_cons]

theorem branchLeaves_eq (branches : List (Branch Expr)) :
    branchLeaves branches =
      (branches.flatMap Branch.both).flatMap leaves := by
  induction branches with
  | nil => rfl
  | cons branch rest ih => simp [branchLeaves, Branch.both, ih]

theorem optionLeaves_eq (expr : Option Expr) :
    optionLeaves expr = expr.toList.flatMap leaves := by
  cases expr <;> simp [optionLeaves]

/-- A leaf of an expression is a column, a query right within it, or a leaf of a part. -/
theorem mem_leaves_iff {expr : Expr} {leaf : Leaf} :
    leaf ∈ expr.leaves ↔
      (∃ reference, expr = .column reference ∧ leaf = .column reference) ∨
      (∃ query, expr.query? = some query ∧ leaf = .query query) ∨
      ∃ part ∈ expr.parts .all, leaf ∈ part.leaves := by
  cases expr with
  | inQuery _ operand query => simp [leaves, parts, query?, or_comm]
  | _ =>
      simp [leaves, parts, query?, WindowClauses.all, listLeaves_eq, orderLeaves_eq,
        branchLeaves_eq, optionLeaves_eq, or_and_right, exists_or]

theorem Contains.mem_leaves {expr part : Expr} {leaf : Leaf} (contains : expr.Contains clauses part)
    (member : leaf ∈ part.leaves) : leaf ∈ expr.leaves := by
  induction contains with
  | self => exact member
  | part _ known ih =>
      apply ih
      exact mem_leaves_iff.mpr (.inr (.inr ⟨_, mem_parts_all known, member⟩))

theorem Contains.column_leaf {expr : Expr} {reference : ColumnReference}
    (contains : expr.Contains clauses (.column reference)) : .column reference ∈ expr.leaves :=
  contains.mem_leaves (List.mem_singleton.mpr rfl)

theorem Contains.query_leaf {expr part : Expr} {query : Query}
    (contains : expr.Contains clauses part) (holds : part.query? = some query) :
    .query query ∈ expr.leaves :=
  contains.mem_leaves (mem_leaves_iff.mpr (.inr (.inl ⟨query, holds, rfl⟩)))

theorem sizeOf_lt_of_query? {expr : Expr} {query : Query} (holds : expr.query? = some query) :
    sizeOf query < sizeOf expr := by
  cases expr with
  | inQuery _ _ _ | «exists» _ _ | subquery _ =>
      cases holds
      simp +arith
  | _ => cases holds

theorem sizeOf_lt_of_query_leaf {expr : Expr} {query : Query} (leaf : .query query ∈ expr.leaves) :
    sizeOf query < sizeOf expr := by
  induction expr using induction_on_parts with
  | step expr ih =>
      rcases mem_leaves_iff.mp leaf with ⟨_, _, own⟩ | ⟨held, holds, own⟩ | ⟨part, member, leaf⟩
      · cases own
      · cases own
        exact sizeOf_lt_of_query? holds
      · exact Nat.lt_trans (ih part member leaf) (sizeOf_lt_of_mem_parts member)

/-! ## References of the parts -/

theorem anyReferences_eq (handle : Alias) (exprs : List Expr) :
    anyReferences handle exprs = exprs.any (references handle) := by
  induction exprs with
  | nil => rfl
  | cons expr rest ih => rw [anyReferences, ih, List.any_cons]

theorem orderReferences_eq (handle : Alias) (items : List (OrderItem Expr)) :
    orderReferences handle items = (items.map OrderItem.expr).any (references handle) := by
  induction items with
  | nil => rfl
  | cons item rest ih => rw [orderReferences, ih, List.map_cons, List.any_cons]

theorem branchReferences_eq (handle : Alias) (branches : List (Branch Expr)) :
    branchReferences handle branches =
      (branches.flatMap Branch.both).any (references handle) := by
  induction branches with
  | nil => rfl
  | cons branch rest ih => simp [branchReferences, Branch.both, ih, Bool.or_assoc]

theorem optionReferences_eq (handle : Alias) (expr : Option Expr) :
    optionReferences handle expr = expr.toList.any (references handle) := by
  cases expr <;> simp [optionReferences]

theorem references_iff_part {handle : Alias} {expr : Expr} :
    expr.references handle = true ↔
      (∃ column, expr = .column (.resolved column) ∧ column.alias.same handle = true) ∨
      ∃ part ∈ expr.parts .all, part.references handle = true := by
  cases expr with
  | column reference => cases reference <;> simp [references, parts]
  | window _ arguments partition order =>
      simp only [references, anyReferences_eq, orderReferences_eq, parts, WindowClauses.all,
        if_true, ← List.any_append, List.any_eq_true, reduceCtorEq, false_and, exists_false,
        false_or]
  | case branches otherwise =>
      simp only [references, branchReferences_eq, optionReferences_eq, parts, ← List.any_append,
        List.any_eq_true, reduceCtorEq, false_and, exists_false, false_or]
  | _ => simp [references, parts, anyReferences_eq, or_assoc]

/-- An expression references an alias just if a column outside its sub-queries is bound
to it. -/
theorem references_iff {handle : Alias} {expr : Expr} :
    expr.references handle = true ↔
      ∃ column, .column (.resolved column) ∈ expr.leaves ∧ column.alias.same handle = true := by
  induction expr using induction_on_parts with
  | step expr ih =>
      rw [references_iff_part]
      constructor
      · rintro (⟨column, rfl, same⟩ | ⟨part, member, references⟩)
        · exact ⟨column, List.mem_singleton.mpr rfl, same⟩
        · rcases (ih part member).mp references with ⟨column, leaf, same⟩
          exact ⟨column, mem_leaves_iff.mpr (.inr (.inr ⟨part, member, leaf⟩)), same⟩
      · rintro ⟨column, leaf, same⟩
        rcases mem_leaves_iff.mp leaf with ⟨reference, rfl, own⟩ | ⟨query, _, own⟩ |
          ⟨part, member, leaf⟩
        · cases own
          exact .inl ⟨column, rfl, same⟩
        · cases own
        · exact .inr ⟨part, member, (ih part member).mpr ⟨column, leaf, same⟩⟩

end Expr

/-! ## Queries within a query -/

namespace Query

theorem sizeOf_lt_of_mem_exprs {query : Query} {expr : Expr} (member : expr ∈ query.exprs) :
    sizeOf expr < sizeOf query := by
  cases query with
  | mk distinct projection source joins filter groupBy having operands orderBy fetchFirst
      offset isolation lock =>
      simp only [exprs, List.mem_append, List.mem_map, List.mem_filterMap,
        Option.mem_toList] at member
      simp only [mk.sizeOf_spec]
      rcases member with ((((⟨⟨_, label⟩, known, rfl⟩ | ⟨⟨kind, joined, on⟩, known, condition⟩) |
        known) | known) | known) | ⟨⟨_, descending⟩, known, rfl⟩
      · have smaller := List.sizeOf_lt_of_mem known
        simp only [Projection.mk.sizeOf_spec] at smaller ⊢
        omega
      · cases condition
        have smaller := List.sizeOf_lt_of_mem known
        simp only [Join.mk.sizeOf_spec, Option.some.sizeOf_spec] at smaller
        omega
      · cases known
        simp +arith
      · have smaller := List.sizeOf_lt_of_mem known
        omega
      · cases known
        simp +arith
      · have smaller := List.sizeOf_lt_of_mem known
        simp only [OrderItem.mk.sizeOf_spec] at smaller ⊢
        omega

theorem sizeOf_lt_of_mem_sources {query : Query} {source : Source}
    (member : source ∈ query.sources) : sizeOf source < sizeOf query := by
  cases query with
  | mk distinct projection first joins filter groupBy having operands orderBy fetchFirst
      offset isolation lock =>
      simp only [mk.sizeOf_spec]
      rcases List.mem_cons.mp member with rfl | joined
      · omega
      · rcases List.mem_map.mp joined with ⟨⟨kind, _, on⟩, known, rfl⟩
        have smaller := List.sizeOf_lt_of_mem known
        simp only [Join.mk.sizeOf_spec] at smaller ⊢
        omega

theorem sizeOf_lt_of_nests {query nested : Query} (nests : query.Nests nested) :
    sizeOf nested < sizeOf query := by
  cases nests with
  | inExpr member leaf =>
      exact Nat.lt_trans (Expr.sizeOf_lt_of_query_leaf leaf) (sizeOf_lt_of_mem_exprs member)
  | @behind source _ member behind =>
      have smaller := sizeOf_lt_of_mem_sources member
      cases source with
      | mk handle relation =>
          cases relation with
          | table | temporary => cases behind
          | derived _ | common _ =>
              cases behind
              simp only [Source.mk.sizeOf_spec, Relation.derived.sizeOf_spec,
                Relation.common.sizeOf_spec] at smaller
              omega
  | @operand operand member =>
      cases query with
      | mk =>
          have smaller := List.sizeOf_lt_of_mem member
          cases operand
          simp only [Operand.mk.sizeOf_spec, mk.sizeOf_spec] at smaller ⊢
          omega

/-- What holds of a query as soon as it holds of the queries directly within it holds of every
query. -/
theorem induction_on_nests {motive : Query → Prop}
    (step : ∀ query, (∀ nested, query.Nests nested → motive nested) → motive query)
    (query : Query) : motive query :=
  step query fun nested _ => induction_on_nests step nested
termination_by sizeOf query
decreasing_by exact sizeOf_lt_of_nests ‹_›

end Query

end SqlSelect
