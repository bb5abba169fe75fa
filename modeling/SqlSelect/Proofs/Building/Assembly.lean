import SqlSelect.Proofs.Closure.Part

/-!
# Assembling the parts of a term

A term is assembled from its parts, from left to right.  The parts of its expression come
from parts of the term.
-/

namespace SqlSelect

namespace Term

/-- The terms right within a term, from left to right. -/
def parts : Term → List Term
  | .column .. | .value _ | .literal _ | .optional .. | .countAll | .exists .. | .subquery _ => []
  | .not operand | .negate operand | .nullable operand | .isNull _ operand | .cast operand _ _
  | .inSelect _ operand _ => [operand]
  | .binary _ left right => [left, right]
  | .between _ operand low high => [operand, low, high]
  | .like _ operand pattern => [operand, pattern]
  | .inList _ operand items => operand :: items
  | .call _ _ arguments => arguments
  | .window _ arguments partition order => arguments ++ partition ++ order.map OrderItem.expr
  | .case first rest otherwise =>
    (first :: rest).flatMap Branch.both ++ otherwise.toList

theorem sizeOf_lt_of_mem_parts {term part : Term} (member : part ∈ term.parts) :
    sizeOf part < sizeOf term := by
  cases term with
  | column _ _ _ | value _ | literal _ | optional _ _ | countAll | «exists» _ _ | subquery _ =>
      cases member
  | not operand | negate operand | nullable operand | isNull _ operand | cast operand _ _
  | inSelect _ operand _ =>
      rw [List.mem_singleton.mp member]
      simp +arith
  | binary _ left right | like _ left right =>
      simp only [parts, List.mem_cons, List.not_mem_nil, or_false] at member
      rcases member with rfl | rfl <;> simp +arith
  | between _ operand low high =>
      simp only [parts, List.mem_cons, List.not_mem_nil, or_false] at member
      rcases member with rfl | rfl | rfl <;> simp +arith
  | inList _ operand items =>
      rcases List.mem_cons.mp member with rfl | member
      · simp +arith
      · have smaller := List.sizeOf_lt_of_mem member
        simp only [inList.sizeOf_spec]
        omega
  | call _ _ arguments =>
      have smaller : sizeOf part < sizeOf arguments := List.sizeOf_lt_of_mem member
      simp only [call.sizeOf_spec]
      omega
  | window _ arguments partition order =>
      simp only [parts, List.mem_append, List.mem_map] at member
      simp only [window.sizeOf_spec]
      rcases member with (member | member) | ⟨⟨ordering, descending⟩, member, rfl⟩
      · have smaller := List.sizeOf_lt_of_mem member
        omega
      · have smaller := List.sizeOf_lt_of_mem member
        omega
      · have smaller := List.sizeOf_lt_of_mem member
        simp only [OrderItem.mk.sizeOf_spec] at smaller ⊢
        omega
  | case first rest otherwise =>
      cases first with
      | mk condition result =>
          simp only [parts, List.flatMap_cons, Branch.both, List.mem_append, List.mem_flatMap,
            List.mem_cons, List.not_mem_nil, or_false, Option.mem_toList] at member
          simp only [case.sizeOf_spec, Branch.mk.sizeOf_spec]
          rcases member with ((rfl | rfl) | ⟨⟨condition, result⟩, member, rfl | rfl⟩) | member
          · omega
          · omega
          · have smaller := List.sizeOf_lt_of_mem member
            simp only [Branch.mk.sizeOf_spec] at smaller
            omega
          · have smaller := List.sizeOf_lt_of_mem member
            simp only [Branch.mk.sizeOf_spec] at smaller
            omega
          · cases member
            simp +arith

/-- What holds of a term as soon as it holds of its parts holds of every term. -/
theorem induction_on_parts {motive : Term → Prop}
    (step : ∀ term, (∀ part ∈ term.parts, motive part) → motive term) (term : Term) :
    motive term :=
  step term fun part _ => induction_on_parts step part
termination_by sizeOf term
decreasing_by exact sizeOf_lt_of_mem_parts ‹_›

theorem assembleAll_eq (terms : List Term) : assembleAll terms = terms.mapM assemble := by
  induction terms with
  | nil => rfl
  | cons term rest ih => rw [assembleAll, ih, List.mapM_cons]

theorem assembleOrder_eq (items : List (OrderItem Term)) :
    assembleOrder items =
      items.mapM fun item => return ⟨← item.expr.assemble, item.descending⟩ := by
  induction items with
  | nil => rfl
  | cons item rest ih =>
      rw [assembleOrder, ih, List.mapM_cons, bind_assoc]
      rfl

theorem assembleBranches_eq (branches : List (Branch Term)) :
    assembleBranches branches = branches.mapM fun branch =>
      return ⟨← branch.condition.assemble, ← branch.result.assemble⟩ := by
  induction branches with
  | nil => rfl
  | cons branch rest ih =>
      simp only [assembleBranches, ih, List.mapM_cons, bind_assoc]
      rfl

theorem mem_assembleOption {term : Option Term} {expr : Option Expr}
    (assembles : assembleOption term = .ok expr) :
    ∀ part ∈ expr.toList, ∃ original ∈ term.toList, original.assemble = .ok part := by
  cases term with
  | none =>
      cases assembles
      intro part member
      cases member
  | some term =>
      simp only [assembleOption, except_bind_ok, except_pure_ok] at assembles
      rcases assembles with ⟨_, termAssembles, rfl⟩
      simpa using termAssembles

/-- A term stands for what a part of it stands for, or the parts of its expression are
assembled from parts of it. -/
theorem assemble_parts {term : Term} {expr : Expr} (assembles : term.assemble = .ok expr) :
    (∃ operand ∈ term.parts, operand.assemble = .ok expr) ∨
      ∀ part ∈ expr.parts .all, ∃ original ∈ term.parts, original.assemble = .ok part := by
  cases term with
  | nullable operand => exact .inl ⟨operand, List.mem_singleton.mpr rfl, assembles⟩
  | column _ _ _ | value _ | literal _ | countAll =>
      cases assembles
      exact .inr fun _ member => absurd member List.not_mem_nil
  | optional _ scalar =>
      cases scalar <;> cases assembles <;> exact .inr fun _ member => absurd member List.not_mem_nil
  | «exists» _ _ | subquery _ =>
      simp only [assemble, except_bind_ok, except_pure_ok] at assembles
      rcases assembles with ⟨_, _, rfl⟩
      exact .inr fun _ member => absurd member List.not_mem_nil
  | not operand | negate operand | isNull _ operand | cast operand _ _ =>
      simp only [assemble, except_bind_ok, except_pure_ok] at assembles
      rcases assembles with ⟨_, operandAssembles, rfl⟩
      exact .inr (by simpa [parts, Expr.parts] using operandAssembles)
  | inSelect _ operand _ =>
      simp only [assemble, except_bind_ok, except_pure_ok] at assembles
      rcases assembles with ⟨_, operandAssembles, _, _, rfl⟩
      exact .inr (by simpa [parts, Expr.parts] using operandAssembles)
  | binary _ left right | like _ left right =>
      simp only [assemble, except_bind_ok, except_pure_ok] at assembles
      rcases assembles with ⟨_, leftAssembles, _, rightAssembles, rfl⟩
      exact .inr (by simp [parts, Expr.parts, leftAssembles, rightAssembles])
  | between _ operand low high =>
      simp only [assemble, except_bind_ok, except_pure_ok] at assembles
      rcases assembles with ⟨_, operandAssembles, _, lowAssembles, _, highAssembles, rfl⟩
      exact .inr (by simp [parts, Expr.parts, operandAssembles, lowAssembles, highAssembles])
  | inList _ operand items =>
      simp only [assemble, except_bind_ok] at assembles
      rcases assembles with ⟨_, operandAssembles, _, itemsAssemble, rest⟩
      rw [assembleAll_eq] at itemsAssemble
      split at rest <;> cases rest
      refine .inr fun part member => ?_
      rcases List.mem_cons.mp member with rfl | member
      · exact ⟨operand, List.mem_cons_self, operandAssembles⟩
      · rcases exists_of_mem_mapM itemsAssemble member with ⟨original, known, assembles⟩
        exact ⟨original, List.mem_cons_of_mem operand known, assembles⟩
  | call _ _ arguments =>
      simp only [assemble, except_bind_ok, except_pure_ok] at assembles
      rcases assembles with ⟨_, argumentsAssemble, rfl⟩
      rw [assembleAll_eq] at argumentsAssemble
      exact .inr fun part member => exists_of_mem_mapM argumentsAssemble member
  | window _ arguments partition order =>
      simp only [assemble, except_bind_ok, except_pure_ok] at assembles
      rcases assembles with ⟨_, argumentsAssemble, _, partitionAssembles, _, orderAssembles, rfl⟩
      rw [assembleAll_eq] at argumentsAssemble partitionAssembles
      rw [assembleOrder_eq] at orderAssembles
      refine .inr fun part member => ?_
      simp only [parts, Expr.parts, WindowClauses.all, if_true, List.mem_append] at member ⊢
      rcases member with (member | member) | member
      · rcases exists_of_mem_mapM argumentsAssemble member with ⟨original, known, assembles⟩
        exact ⟨original, .inl (.inl known), assembles⟩
      · rcases exists_of_mem_mapM partitionAssembles member with ⟨original, known, assembles⟩
        exact ⟨original, .inl (.inr known), assembles⟩
      · rcases mem_order_of_mapM orderAssembles part member with ⟨original, known, assembles⟩
        exact ⟨original, .inr known, assembles⟩
  | case first rest otherwise =>
      cases first with
      | mk condition result =>
          simp only [assemble, except_bind_ok, except_pure_ok] at assembles
          obtain ⟨_, conditionAssembles, _, resultAssembles, _, restAssembles,
            _, otherwiseAssembles, rfl⟩ := assembles
          rw [assembleBranches_eq] at restAssembles
          refine .inr fun part member => ?_
          simp only [parts, Expr.parts, List.flatMap_cons, Branch.both, List.mem_append,
            List.mem_cons, List.not_mem_nil, or_false] at member ⊢
          rcases member with ((rfl | rfl) | member) | member
          · exact ⟨condition, .inl (.inl (.inl rfl)), conditionAssembles⟩
          · exact ⟨result, .inl (.inl (.inr rfl)), resultAssembles⟩
          · rcases mem_branches_of_mapM restAssembles part member with
              ⟨original, known, assembles⟩
            exact ⟨original, .inl (.inr known), assembles⟩
          · rcases mem_assembleOption otherwiseAssembles part member with
              ⟨original, known, assembles⟩
            exact ⟨original, .inr known, assembles⟩

end Term

end SqlSelect
