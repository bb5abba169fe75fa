import SqlSelect.Proofs.Closure.Invariant
import SqlSelect.Proofs.Closure.Resolution

/-!
# Hints narrow

A hint that admits fewer aliases leaves fewer candidates at every level, nearer ones included,
so that a search may go on past a level that decided before.  It does not go past the alias
that was found: as long as the hint admits that one, the reference is bound to it again.
-/

namespace SqlSelect

/-- Whatever in sight of a scope the one hint admits, the other admits as well. -/
def Hint.NarrowerIn (scope : Scope) (narrow wide : Hint) : Prop :=
  ∀ handle ∈ scope.visible, narrow.admits handle = true → wide.admits handle = true

namespace Scope

/-- The aliases in sight are told apart by their identity: what has that of an alias is this
alias. -/
def ToldApart (scope : Scope) : Prop :=
  ∀ left ∈ scope.visible, ∀ right ∈ scope.visible, left.same right = true → left = right

/-- What becomes of a reference when its hint says more. -/
structure HintsNarrow (scope : Scope) (column : ColumnInfo) : Prop where
  /-- What the bare column is bound to, it is bound to by the name of that alias, -/
  bare_named : ∀ resolved, scope.resolve column .any = .ok resolved →
    scope.resolve column (.named resolved.alias.displayName) = .ok resolved
  /-- and by the alias itself. -/
  bare_only : ∀ resolved, scope.resolve column .any = .ok resolved →
    scope.resolve column (.only resolved.alias) = .ok resolved
  /-- What a column is bound to by a name, it is bound to by the alias itself. -/
  named_only : scope.ToldApart → ∀ name resolved,
    scope.resolve column (.named name) = .ok resolved →
    scope.resolve column (.only resolved.alias) = .ok resolved
  /-- A name is the name of what it binds to. -/
  named_exact : ∀ name resolved, scope.resolve column (.named name) = .ok resolved →
    resolved.column = column ∧ resolved.alias.displayName = name
  /-- An alias binds to itself and to nothing else, -/
  only_same : ∀ handle resolved, scope.resolve column (.only handle) = .ok resolved →
    resolved.column = column ∧ handle.same resolved.alias = true
  /-- which is this very one where aliases are told apart. -/
  only_exact : scope.ToldApart → ∀ handle ∈ scope.visible, ∀ resolved,
    scope.resolve column (.only handle) = .ok resolved → resolved = ⟨handle, column⟩

variable {scope : Scope} {column : ColumnInfo} {hint narrow wide : Hint}
variable {level : List Alias} {resolved : ResolvedColumn}

/-! ## Scopes that tell their aliases apart -/

theorem toldApart_empty (database : Database) : (empty database).ToldApart := by
  intro left member
  cases member

theorem ToldApart.nested (told : scope.ToldApart) : scope.nested.ToldApart := told

theorem mem_visible_plus {handle other : Alias} :
    other ∈ (scope.plus handle).visible ↔ other ∈ scope.visible ∨ other = handle := by
  simp only [visible, levels, plus, List.flatten_cons, List.mem_append, List.mem_singleton]
  exact or_right_comm

/-- An alias that comes in sight is new there, or the one that has its identity. -/
theorem ToldApart.plus (told : scope.ToldApart) {handle : Alias}
    (known : ∀ other ∈ scope.visible, other.same handle = true → other = handle) :
    (scope.plus handle).ToldApart := by
  intro left leftVisible right rightVisible same
  rcases mem_visible_plus.mp leftVisible with leftOld | rfl
  · rcases mem_visible_plus.mp rightVisible with rightOld | rfl
    · exact told left leftOld right rightOld same
    · exact known left leftOld same
  · rcases mem_visible_plus.mp rightVisible with rightOld | rfl
    · rw [Alias.same_comm] at same
      exact (known right rightOld same).symm
    · rfl

/-! ## Fewer candidates -/

/-- The candidates that a narrower hint leaves are those it admits among the others. -/
theorem candidates_of_narrower
    (narrower : ∀ handle ∈ level, narrow.admits handle = true → wide.admits handle = true) :
    candidates column narrow level = (candidates column wide level).filter narrow.admits := by
  rw [candidates, candidates, List.filter_filter]
  apply List.filter_congr
  intro handle member
  cases admitted : narrow.admits handle with
  | false => simp
  | true => simp [narrower handle member admitted]

/-- What a reference is bound to, its hint admits. -/
theorem admits_of_resolve (resolves : scope.resolve column hint = .ok resolved) :
    hint.admits resolved.alias = true := by
  obtain ⟨_, level, _, single⟩ := resolve_eq_ok_iff_decides.mp resolves
  have member : resolved.alias ∈ candidates column hint level := by
    rw [single]
    exact List.mem_singleton.mpr rfl
  rw [candidates, List.mem_filter, Bool.and_eq_true] at member
  exact member.2.1

/-- A narrower hint binds a reference to the same alias, if it admits that alias. -/
theorem resolve_of_narrower (narrower : narrow.NarrowerIn scope wide)
    (resolves : scope.resolve column wide = .ok resolved)
    (admitted : narrow.admits resolved.alias = true) :
    scope.resolve column narrow = .ok resolved := by
  obtain ⟨own, level, ⟨⟨nearer, farther, split, passed⟩, _⟩, single⟩ :=
    resolve_eq_ok_iff_decides.mp resolves
  have filtered : ∀ other ∈ scope.levels,
      candidates column narrow other = (candidates column wide other).filter narrow.admits := by
    intro other member
    apply candidates_of_narrower
    intro handle inLevel
    exact narrower handle (List.mem_flatten.mpr ⟨other, member, inLevel⟩)
  have levelFiltered : candidates column narrow level = [resolved.alias] := by
    rw [filtered level (by simp [split]), single]
    simp [admitted]
  -- The levels that were passed over have no candidate, and get none.
  have stillPassed : ∀ other ∈ nearer, candidates column narrow other = [] := by
    intro other member
    rw [filtered other (by simp [split, member]), passed other member, List.filter_nil]
  apply resolve_eq_ok_iff_decides.mpr
  refine ⟨own, level, ⟨⟨nearer, farther, split, stillPassed⟩, ?_⟩, levelFiltered⟩
  rw [levelFiltered]
  exact List.cons_ne_nil _ _

theorem narrowerIn_any (scope : Scope) (hint : Hint) : hint.NarrowerIn scope .any :=
  fun _ _ _ => rfl

/-- Where aliases are told apart, one of them is narrower than its name. -/
theorem ToldApart.narrowerIn_named (told : scope.ToldApart) {handle : Alias}
    (visible : handle ∈ scope.visible) :
    (Hint.only handle).NarrowerIn scope (.named handle.displayName) := by
  intro other otherVisible same
  rw [told handle visible other otherVisible same]
  exact beq_self_eq_true _

/-- A hint that says more keeps a reference bound to what it was bound to. -/
theorem hints_narrow (scope : Scope) (column : ColumnInfo) : scope.HintsNarrow column := by
  constructor
  case bare_named =>
    intro resolved resolves
    exact resolve_of_narrower (narrowerIn_any scope _) resolves (beq_self_eq_true _)
  case bare_only =>
    intro resolved resolves
    exact resolve_of_narrower (narrowerIn_any scope _) resolves resolved.alias.same_self
  case named_only =>
    intro told name resolved resolves
    have visible := (resolve_visible resolves).1
    have named : resolved.alias.displayName = name := beq_iff_eq.mp (admits_of_resolve resolves)
    have narrower := told.narrowerIn_named visible
    rw [named] at narrower
    exact resolve_of_narrower narrower resolves resolved.alias.same_self
  case named_exact =>
    intro name resolved resolves
    exact ⟨(resolve_eq_ok_iff.mp resolves).1, beq_iff_eq.mp (admits_of_resolve resolves)⟩
  case only_same =>
    intro handle resolved resolves
    exact ⟨(resolve_eq_ok_iff.mp resolves).1, admits_of_resolve resolves⟩
  case only_exact =>
    intro told handle visible resolved resolves
    obtain ⟨own, _⟩ := resolve_eq_ok_iff.mp resolves
    rw [told handle visible _ (resolve_visible resolves).1 (admits_of_resolve resolves), ← own]

end Scope

namespace Sample

def house : Alias := ⟨2, some "p", ⟨"house", "HOUSE", none, []⟩⟩

/-- A child in its house, in sight of its parent, who goes by the name of the house. -/
def household : Scope :=
  children.scope.plus house

theorem household_narrow :
    household.ToldApart ∧
      household.resolve (person.info key) (.named "p") = .ok ⟨parent, person.info key⟩ ∧
      household.resolve (person.info key) (.only parent) = .ok ⟨parent, person.info key⟩ := by
  have alone : everyone.scope.ToldApart := by
    apply (Scope.toldApart_empty _).plus
    intro other visible
    cases visible
  have told : household.ToldApart := by
    apply Scope.ToldApart.plus
    · apply alone.nested.plus
      intro other visible same
      cases List.mem_singleton.mp visible
      cases same
    · intro other visible same
      rcases List.mem_cons.mp visible with rfl | visible
      · cases same
      · cases List.mem_singleton.mp visible
        cases same
  have named : household.resolve (person.info key) (.named "p") =
      .ok ⟨parent, person.info key⟩ := by rfl
  have narrow := Scope.hints_narrow household (person.info key)
  exact ⟨told, named, narrow.named_only told "p" _ named⟩

end Sample

end SqlSelect
