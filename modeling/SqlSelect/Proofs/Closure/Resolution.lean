import SqlSelect.Proofs.Closure.Binding

/-!
# Resolution in a growing scope

A reference is decided by one level of its scope: the nearest that holds a candidate for it.
An empty level inside a scope decides nothing.  One more alias at the own level of a scope
decides what nothing in that level decided before, and is one candidate too many for what was
decided there.
-/

namespace SqlSelect.Scope

variable {scope : Scope} {column : ColumnInfo} {hint : Hint} {handle : Alias}
variable {level : List Alias} {levels nearer : List (List Alias)}

/-- The level that decides a reference: it holds a candidate, and no nearer one does. -/
structure Decides (column : ColumnInfo) (hint : Hint) (levels : List (List Alias))
    (level : List Alias) : Prop where
  split : ∃ nearer farther, levels = nearer ++ level :: farther ∧
    ∀ other ∈ nearer, candidates column hint other = []
  holds : candidates column hint level ≠ []

/-- What becomes of a reference when its scope grows. -/
structure Growth (scope : Scope) (handle : Alias) (column : ColumnInfo) (hint : Hint) :
    Prop where
  /-- An empty level inside a scope changes nothing. -/
  nested : scope.nested.resolve column hint = scope.resolve column hint
  /-- An alias to which the reference cannot be bound does not change what it is bound to, -/
  passed_bound : ¬ (hint.admits handle = true ∧ handle.exposes column = true) → ∀ resolved,
    (scope.plus handle).resolve column hint = .ok resolved ↔
      scope.resolve column hint = .ok resolved
  /-- nor between which aliases it is ambiguous, -/
  passed_ambiguous : ¬ (hint.admits handle = true ∧ handle.exposes column = true) →
    ∀ several, (scope.plus handle).resolve column hint =
        .error (.ambiguousReference column several) ↔
      scope.resolve column hint = .error (.ambiguousReference column several)
  /-- nor that nothing in sight exposes it. -/
  passed_unresolved : ¬ (hint.admits handle = true ∧ handle.exposes column = true) →
    ((scope.plus handle).resolve column hint =
        .error (.unresolvedReference column (scope.plus handle).visible) ↔
      scope.resolve column hint = .error (.unresolvedReference column scope.visible))
  /-- Where the own level holds no candidate, the new alias is the one that is bound, whatever
  an enclosing level holds. -/
  shadows : hint.admits handle = true → handle.exposes column = true →
    candidates column hint scope.nearest = [] →
    (scope.plus handle).resolve column hint = .ok ⟨handle, column⟩
  /-- Where it holds any, the new one comes behind them. -/
  clashes : hint.admits handle = true → handle.exposes column = true →
    candidates column hint scope.nearest ≠ [] →
    (scope.plus handle).resolve column hint = .error (.ambiguousReference column
      (candidates column hint scope.nearest ++ [handle]))
  /-- A reference is bound just if the level that decides it holds one candidate. -/
  bound_iff : ∀ resolved, scope.resolve column hint = .ok resolved ↔
    resolved.column = column ∧ ∃ level, Decides column hint scope.levels level ∧
      candidates column hint level = [resolved.alias]
  /-- The alias of a bound reference is in sight and exposes its column. -/
  contained : ∀ resolved, scope.resolve column hint = .ok resolved →
    scope.contains resolved.alias = true ∧ resolved.alias.exposes column = true
  /-- What is ambiguous at a level stays so, whatever is added to that level. -/
  stays_ambiguous : ∀ nearer level farther added, ∀ grown : Scope,
    scope.levels = nearer ++ level :: farther →
    grown.levels = nearer ++ (level ++ added) :: farther →
    (∀ other ∈ nearer, candidates column hint other = []) →
    2 ≤ (candidates column hint level).length →
    scope.resolve column hint =
        .error (.ambiguousReference column (candidates column hint level)) ∧
      grown.resolve column hint = .error (.ambiguousReference column
        (candidates column hint level ++ candidates column hint added))

/-! ## The level that decides -/

theorem candidates_append (left right : List Alias) :
    candidates column hint (left ++ right) =
      candidates column hint left ++ candidates column hint right :=
  List.filter_append left right

theorem candidates_singleton (handle : Alias) :
    candidates column hint [handle] =
      if hint.admits handle && handle.exposes column then [handle] else [] := by
  rw [candidates, List.filter_cons, List.filter_nil]

theorem nearestCandidates_of_empty (rest : List (List Alias))
    (empty : candidates column hint level = []) :
    nearestCandidates column hint (level :: rest) = nearestCandidates column hint rest := by
  rw [nearestCandidates, empty]

theorem nearestCandidates_of_holds (rest : List (List Alias))
    (holds : candidates column hint level ≠ []) :
    nearestCandidates column hint (level :: rest) = candidates column hint level := by
  rw [nearestCandidates]
  split
  · exact absurd ‹_› holds
  · rfl

/-- Levels without a candidate are passed over. -/
theorem nearestCandidates_append (rest : List (List Alias))
    (empty : ∀ other ∈ nearer, candidates column hint other = []) :
    nearestCandidates column hint (nearer ++ rest) = nearestCandidates column hint rest := by
  induction nearer with
  | nil => rfl
  | cons first others ih =>
      rw [List.cons_append, nearestCandidates_of_empty _ (empty first List.mem_cons_self)]
      exact ih fun other member => empty other (List.mem_cons_of_mem first member)

theorem Decides.nearestCandidates_eq (decides : Decides column hint levels level) :
    nearestCandidates column hint levels = candidates column hint level := by
  obtain ⟨⟨nearer, farther, rfl, empty⟩, holds⟩ := decides
  rw [nearestCandidates_append _ empty, nearestCandidates_of_holds _ holds]

theorem exists_decides (found : nearestCandidates column hint levels ≠ []) :
    ∃ level, Decides column hint levels level := by
  induction levels with
  | nil => exact absurd rfl found
  | cons first rest ih =>
      by_cases empty : candidates column hint first = []
      · rw [nearestCandidates_of_empty _ empty] at found
        obtain ⟨level, ⟨nearer, farther, rfl, passed⟩, holds⟩ := ih found
        refine ⟨level, ⟨first :: nearer, farther, rfl, ?_⟩, holds⟩
        exact List.forall_mem_cons.mpr ⟨empty, passed⟩
      · exact ⟨first, ⟨[], rest, rfl, List.forall_mem_nil _⟩, empty⟩

/-! ## The outcome of a resolution -/

theorem resolve_eq_ok_iff {resolved : ResolvedColumn} :
    scope.resolve column hint = .ok resolved ↔
      resolved.column = column ∧
        nearestCandidates column hint scope.levels = [resolved.alias] := by
  obtain ⟨handle, own⟩ := resolved
  rcases found : nearestCandidates column hint scope.levels with _ | ⟨first, _ | ⟨second, rest⟩⟩
  · simp [resolve, found]
  · simp [resolve, found, and_comm, eq_comm]
  · simp [resolve, found]

theorem resolve_eq_ambiguous_iff {several : List Alias} :
    scope.resolve column hint = .error (.ambiguousReference column several) ↔
      nearestCandidates column hint scope.levels = several ∧ 2 ≤ several.length := by
  rcases found : nearestCandidates column hint scope.levels with _ | ⟨first, _ | ⟨second, rest⟩⟩
  · simp only [resolve, found, Except.error.injEq, reduceCtorEq, false_iff]
    rintro ⟨rfl, many⟩
    cases many
  · simp only [resolve, found, reduceCtorEq, false_iff]
    rintro ⟨rfl, many⟩
    exact absurd many (by simp)
  · simp only [resolve, found, Except.error.injEq, QueryError.ambiguousReference.injEq, true_and]
    constructor
    · rintro rfl
      exact ⟨rfl, by simp⟩
    · exact And.left

theorem resolve_eq_unresolved_iff :
    scope.resolve column hint = .error (.unresolvedReference column scope.visible) ↔
      nearestCandidates column hint scope.levels = [] := by
  rcases found : nearestCandidates column hint scope.levels with _ | ⟨first, _ | ⟨second, rest⟩⟩ <;>
    simp [resolve, found]

theorem resolve_eq_ok_iff_decides {resolved : ResolvedColumn} :
    scope.resolve column hint = .ok resolved ↔
      resolved.column = column ∧ ∃ level, Decides column hint scope.levels level ∧
        candidates column hint level = [resolved.alias] := by
  rw [resolve_eq_ok_iff]
  constructor
  · rintro ⟨own, found⟩
    obtain ⟨level, decides⟩ := exists_decides (by rw [found]; exact List.cons_ne_nil _ _)
    exact ⟨own, level, decides, by rw [← decides.nearestCandidates_eq, found]⟩
  · rintro ⟨own, level, decides, single⟩
    exact ⟨own, by rw [decides.nearestCandidates_eq, single]⟩

/-! ## One more alias -/

theorem levels_plus (scope : Scope) (handle : Alias) :
    (scope.plus handle).levels = (scope.nearest ++ [handle]) :: scope.enclosing := rfl

/-- An alias that is no candidate leaves the candidates as they are. -/
theorem nearestCandidates_plus_of_passed
    (passed : ¬ (hint.admits handle = true ∧ handle.exposes column = true)) :
    nearestCandidates column hint (scope.plus handle).levels =
      nearestCandidates column hint scope.levels := by
  have same : candidates column hint (scope.nearest ++ [handle]) =
      candidates column hint scope.nearest := by
    simp [candidates_append, candidates_singleton, passed]
  rw [levels_plus, levels, nearestCandidates, nearestCandidates, same]

/-- A new candidate comes behind those of its own level, and ahead of every other level. -/
theorem nearestCandidates_plus_of_admitted (admitted : hint.admits handle = true)
    (exposes : handle.exposes column = true) :
    nearestCandidates column hint (scope.plus handle).levels =
      candidates column hint scope.nearest ++ [handle] := by
  have found : candidates column hint (scope.nearest ++ [handle]) =
      candidates column hint scope.nearest ++ [handle] := by
    simp [candidates_append, candidates_singleton, admitted, exposes]
  rw [levels_plus, nearestCandidates_of_holds, found]
  rw [found]
  exact List.concat_ne_nil handle _

/-- A level that several candidates share is ambiguous in every scope that has it nearest. -/
theorem resolve_of_several {farther : List (List Alias)}
    (split : scope.levels = nearer ++ level :: farther)
    (empty : ∀ other ∈ nearer, candidates column hint other = [])
    (several : 2 ≤ (candidates column hint level).length) :
    scope.resolve column hint =
      .error (.ambiguousReference column (candidates column hint level)) := by
  have holds : candidates column hint level ≠ [] := by
    intro none
    rw [none] at several
    cases several
  have decides : Decides column hint scope.levels level := ⟨⟨nearer, farther, split, empty⟩, holds⟩
  exact resolve_eq_ambiguous_iff.mpr ⟨decides.nearestCandidates_eq, several⟩

/-- How a reference resolves while its scope grows, one empty level or one alias at a time. -/
theorem resolve_growing (scope : Scope) (handle : Alias) (column : ColumnInfo) (hint : Hint) :
    scope.Growth handle column hint := by
  constructor
  case nested => rfl
  case passed_bound =>
    intro passed resolved
    rw [resolve_eq_ok_iff, resolve_eq_ok_iff, nearestCandidates_plus_of_passed passed]
  case passed_ambiguous =>
    intro passed several
    rw [resolve_eq_ambiguous_iff, resolve_eq_ambiguous_iff,
      nearestCandidates_plus_of_passed passed]
  case passed_unresolved =>
    intro passed
    rw [resolve_eq_unresolved_iff, resolve_eq_unresolved_iff,
      nearestCandidates_plus_of_passed passed]
  case shadows =>
    intro admitted exposes none
    apply resolve_eq_ok_iff.mpr
    rw [nearestCandidates_plus_of_admitted admitted exposes, none]
    exact ⟨rfl, rfl⟩
  case clashes =>
    intro admitted exposes some
    apply resolve_eq_ambiguous_iff.mpr
    refine ⟨nearestCandidates_plus_of_admitted admitted exposes, ?_⟩
    rw [List.length_append, List.length_singleton]
    exact Nat.succ_le_succ (List.length_pos_iff.mpr some)
  case bound_iff => exact fun resolved => resolve_eq_ok_iff_decides
  case contained =>
    intro resolved resolves
    obtain ⟨visible, exposes⟩ := resolve_visible resolves
    obtain ⟨rfl, _⟩ := resolve_eq_ok_iff.mp resolves
    exact ⟨List.any_eq_true.mpr ⟨_, visible, resolved.alias.same_self⟩, exposes⟩
  case stays_ambiguous =>
    intro nearer level farther added grown split grownSplit empty several
    refine ⟨resolve_of_several split empty several, ?_⟩
    rw [← candidates_append]
    apply resolve_of_several grownSplit empty
    rw [candidates_append, List.length_append]
    exact Nat.le_add_right_of_le several

end SqlSelect.Scope
