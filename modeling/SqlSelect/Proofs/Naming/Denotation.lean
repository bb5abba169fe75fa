import Mathlib.Data.List.Nodup
import SqlSelect.Proofs.Naming.Placement
import SqlSelect.Proofs.Prepared.Workshop

/-!
# What a name stands for

A column is bound to an alias, but written with the name of that alias, and nothing keeps two
aliases from having one name.  What a database reads is the alias that the nearest FROM list
with the name declares.  That is the right one just if no other alias in between has the same
name, and a WITH clause declares no name twice just if no two common tables share one.
-/

namespace SqlSelect

/-- The alias that a name stands for inside these FROM lists, nearest first.  The nearest one
with the name decides, and has to hold it once. -/
def Alias.named? (name : String) : List (List Alias) → Option Alias
  | [] => none
  | level :: levels =>
    match level.filter (·.displayName == name) with
    | [] => named? name levels
    | [handle] => some handle
    | _ => none

/-- The name that a column is written with stands for the alias that it is bound to. -/
def ResolvedColumn.Denotes (levels : List (List Alias)) (column : ResolvedColumn) : Prop :=
  Alias.named? column.alias.displayName levels = some column.alias

/-- A column is written in a query, or in one within it, inside these FROM lists, nearest
first. -/
inductive Query.Reads (query : Query) : List (List Alias) → ColumnReference → Prop where
  | column {levels : List (List Alias)} {nested : Query} {expr : Expr}
      {reference : ColumnReference} :
      query.HoldsIn levels nested → expr ∈ nested.exprs → .column reference ∈ expr.leaves →
      Reads query (nested.aliases :: levels) reference

/-- The names in a query stand for what they are meant for. -/
structure Query.Hygienic (clauses : WindowClauses) (query : Query) : Prop where
  columns : ∀ levels reference, query.Reads levels reference →
    ∃ column, reference = .resolved column ∧ column.Denotes levels
  /-- No name is declared twice in the WITH clause. -/
  tables : ((query.hoisted clauses).map (·.alias.displayName)).Nodup

namespace Alias

/-- The nearest of some FROM lists that holds an alias, and the lists that are nearer. -/
structure StandsIn (handle : Alias) (levels nearer : List (List Alias)) (level : List Alias) :
    Prop where
  split : ∃ farther, levels = nearer ++ level :: farther
  member : handle ∈ level
  nearest : handle ∉ nearer.flatten

/-- No other entry of its FROM list, nor of a nearer one, has the name of an alias. -/
structure Unrivalled (handle : Alias) (nearer : List (List Alias)) (level : List Alias) :
    Prop where
  nearer : ∀ other ∈ nearer.flatten, other.displayName ≠ handle.displayName
  once : level.countP (·.displayName == handle.displayName) = 1

end Alias

/-- How the names in a query stand for what they are meant for: what each of them is bound to,
and just when it stands for that. -/
structure Query.NamesResolve (clauses : WindowClauses) (query : Query) : Prop where
  /-- A column is bound to an alias of a FROM list around it, and denotes that alias just if
  it has no rival. -/
  columns : ∀ levels reference, query.Reads levels reference →
    ∃ column nearer level, reference = .resolved column ∧
      column.alias.StandsIn levels nearer level ∧
      (column.Denotes levels ↔ column.alias.Unrivalled nearer level)
  /-- Where all aliases in sight have different names, every column denotes its alias. -/
  apart : ∀ levels reference, query.Reads levels reference →
    (levels.flatten.map Alias.displayName).Nodup →
    ∃ column, reference = .resolved column ∧ column.Denotes levels
  /-- No common table is declared twice. -/
  once : (query.hoisted clauses).Pairwise fun earlier later =>
    earlier.alias.same later.alias = false
  /-- A name is declared twice just if two common tables share it. -/
  tables : ((query.hoisted clauses).map (·.alias.displayName)).Nodup ↔
    ∀ left right, query.Reaches clauses left → query.Reaches clauses right →
      left.alias.displayName = right.alias.displayName → left = right

/-! ## Looking a name up -/

namespace Alias

variable {handle : Alias} {levels nearer : List (List Alias)} {level : List Alias}

/-- A FROM list without the name is passed over. -/
theorem named?_cons_of_absent {name : String} (levels : List (List Alias))
    (absent : ∀ other ∈ level, other.displayName ≠ name) :
    named? name (level :: levels) = named? name levels := by
  have empty : level.filter (·.displayName == name) = [] := by
    rw [List.filter_eq_nil_iff]
    intro other member
    rw [beq_iff_eq]
    exact absent other member
  rw [named?, empty]

/-- A FROM list with the name decides. -/
theorem named?_cons_of_member {name : String} {other : Alias} (levels : List (List Alias))
    (member : other ∈ level) (same : other.displayName = name) :
    named? name (level :: levels) = some handle ↔
      level.filter (·.displayName == name) = [handle] := by
  have kept : other ∈ level.filter (·.displayName == name) :=
    List.mem_filter.mpr ⟨member, beq_iff_eq.mpr same⟩
  rw [named?]
  cases found : level.filter (·.displayName == name) with
  | nil =>
      rw [found] at kept
      cases kept
  | cons first rest =>
      cases rest with
      | nil => simp
      | cons second rest => simp

/-- Where an alias is the first of its FROM list with a name, that list holds the name once
just if nothing else is found there. -/
theorem filter_eq_singleton_iff (member : handle ∈ level) :
    level.filter (·.displayName == handle.displayName) = [handle] ↔
      level.countP (·.displayName == handle.displayName) = 1 := by
  have kept : handle ∈ level.filter (·.displayName == handle.displayName) :=
    List.mem_filter.mpr ⟨member, beq_self_eq_true _⟩
  rw [List.countP_eq_length_filter, List.length_eq_one_iff]
  constructor
  · intro found
    exact ⟨handle, found⟩
  · rintro ⟨only, found⟩
    rw [found] at kept ⊢
    rw [List.mem_singleton.mp kept]

/-- The name of an alias stands for it just if the alias has no rival. -/
theorem StandsIn.named?_iff (stands : handle.StandsIn levels nearer level) :
    named? handle.displayName levels = some handle ↔ handle.Unrivalled nearer level := by
  obtain ⟨⟨farther, rfl⟩, member, nearest⟩ := stands
  induction nearer with
  | nil =>
      rw [List.nil_append, named?_cons_of_member farther member rfl,
        filter_eq_singleton_iff member]
      constructor
      · intro once
        exact ⟨fun _ impossible => absurd impossible List.not_mem_nil, once⟩
      · exact Unrivalled.once
  | cons first rest ih =>
      rw [List.flatten_cons, List.mem_append, not_or] at nearest
      obtain ⟨notFirst, notRest⟩ := nearest
      by_cases rival : ∃ other ∈ first, other.displayName = handle.displayName
      · obtain ⟨other, otherMember, same⟩ := rival
        constructor
        · -- The nearer list decides, and does not hold the alias.
          intro found
          have only := (named?_cons_of_member _ otherMember same).mp found
          have kept : handle ∈ first.filter (·.displayName == handle.displayName) := by
            rw [only]
            exact List.mem_singleton.mpr rfl
          exact absurd (List.mem_filter.mp kept).1 notFirst
        · intro unrivalled
          exact absurd same (unrivalled.nearer other (List.mem_append_left _ otherMember))
      · have absent : ∀ other ∈ first, other.displayName ≠ handle.displayName :=
          fun other otherMember same => rival ⟨other, otherMember, same⟩
        rw [List.cons_append, named?_cons_of_absent _ absent, ih notRest]
        constructor
        · intro unrivalled
          refine ⟨?_, unrivalled.once⟩
          rw [List.flatten_cons, List.forall_mem_append]
          exact ⟨absent, unrivalled.nearer⟩
        · intro unrivalled
          refine ⟨?_, unrivalled.once⟩
          intro other otherMember
          exact unrivalled.nearer other (List.mem_append_right _ otherMember)

/-- Every alias in sight stands in a nearest FROM list. -/
theorem exists_standsIn (visible : handle ∈ levels.flatten) :
    ∃ nearer level, handle.StandsIn levels nearer level := by
  induction levels with
  | nil => cases visible
  | cons first rest ih =>
      by_cases member : handle ∈ first
      · exact ⟨[], first, ⟨rest, rfl⟩, member, List.not_mem_nil⟩
      · obtain ⟨nearer, level, ⟨farther, rfl⟩, found, nearest⟩ :=
          ih ((List.mem_append.mp visible).resolve_left member)
        refine ⟨first :: nearer, level, ⟨farther, rfl⟩, found, ?_⟩
        rw [List.flatten_cons, List.mem_append, not_or]
        exact ⟨member, nearest⟩

/-- Among aliases with different names none has a rival. -/
theorem StandsIn.unrivalled (stands : handle.StandsIn levels nearer level)
    (apart : (levels.flatten.map displayName).Nodup) : handle.Unrivalled nearer level := by
  obtain ⟨⟨farther, rfl⟩, member, nearest⟩ := stands
  rw [List.flatten_append, List.flatten_cons] at apart
  have visible : handle ∈ nearer.flatten ++ (level ++ farther.flatten) :=
    List.mem_append_right _ (List.mem_append_left _ member)
  constructor
  case nearer =>
    intro other otherMember same
    have otherVisible : other ∈ nearer.flatten ++ (level ++ farther.flatten) :=
      List.mem_append_left _ otherMember
    cases List.inj_on_of_nodup_map apart otherVisible visible same
    exact nearest otherMember
  case once =>
    have levelApart : (level.map displayName).Nodup := by
      rw [List.map_append, List.map_append] at apart
      exact (List.nodup_append.mp (List.nodup_append.mp apart).2.1).1
    have counted := List.count_eq_one_of_mem levelApart (List.mem_map_of_mem member)
    rw [List.count, List.countP_map] at counted
    exact counted

end Alias

/-! ## Statements of a program -/

namespace Query

/-- Different common tables are declared under different names just if no two that the query
reaches share one. -/
theorem nodup_names_iff {clauses : WindowClauses} {query : Query}
    (coherent : query.Coherent clauses) :
    ((query.hoisted clauses).map (·.alias.displayName)).Nodup ↔
      ∀ left right, query.Reaches clauses left → query.Reaches clauses right →
        left.alias.displayName = right.alias.displayName → left = right := by
  have declares := hoisted_declares coherent
  have mem_iff (common : CommonQuery) :
      common ∈ query.hoisted clauses ↔ query.Reaches clauses common := by
    rw [declares.mem_iff, Mention.leads_mentions_iff]
    simp
  constructor
  · intro apart left right leftReached rightReached same
    exact List.inj_on_of_nodup_map apart ((mem_iff left).mpr leftReached)
      ((mem_iff right).mpr rightReached) same
  · intro told
    have once : (query.hoisted clauses).Nodup := by
      apply declares.ordered.once.imp
      rintro common _ different rfl
      rw [Alias.same_self] at different
      cases different
    apply once.map_on
    intro left leftKnown right rightKnown same
    exact told left right ((mem_iff left).mp leftKnown) ((mem_iff right).mp rightKnown) same

end Query

/-- A column of a statement that is used where it may be is bound to an alias of a FROM list
around it. -/
theorem Select.visible_of_reads {origin : Select → Prop}
    (origins : ∀ inner, origin inner → inner.Placed origin) {select : Select}
    (known : origin select) (fine : select.failure = none) (outermost : select.InSight [])
    {levels : List (List Alias)} {reference : ColumnReference}
    (reads : select.query.Reads levels reference) :
    ∃ column, reference = .resolved column ∧ column.alias ∈ levels.flatten := by
  obtain ⟨holds, member, leaf⟩ := reads
  obtain ⟨inner, isOrigin, finished, inSight⟩ :=
    placedIn_of_holdsIn origins known fine outermost holds
  obtain ⟨_, rfl⟩ := result_eq_ok finished
  have closed := (origins inner isOrigin).built.sound.query.closed
  obtain ⟨column, resolved, visible, _⟩ := closed.exprs _ member reference leaf
  refine ⟨column, resolved, ?_⟩
  rcases List.mem_append.mp visible with own | outer
  · exact List.mem_append_left _ own
  · exact List.mem_append_right _ (inSight column.alias outer)

/-- In every statement of a program that uses each statement where it may be used, a column is
bound to an alias of a FROM list around it, and its name stands for that alias just if the
alias has no rival.  Common tables are declared once each, and under different names just if
no two of them share one. -/
theorem Workshop.names_resolve {shop : Workshop} (reachable : shop.Reachable)
    {origin : Select → Prop} (made : ∀ inner, origin inner → inner ∈ shop.selects)
    (origins : ∀ inner, origin inner → inner.Placed origin) {select : Select}
    (known : origin select) (fine : select.failure = none) (outermost : select.InSight [])
    (clauses : WindowClauses) : select.query.NamesResolve clauses := by
  have coherent := reachable.sound.coherent (made select known) clauses
  have bound {levels : List (List Alias)} {reference : ColumnReference}
      (reads : select.query.Reads levels reference) :
      ∃ column nearer level, reference = .resolved column ∧
        column.alias.StandsIn levels nearer level := by
    obtain ⟨column, resolved, visible⟩ :=
      Select.visible_of_reads origins known fine outermost reads
    obtain ⟨nearer, level, stands⟩ := Alias.exists_standsIn visible
    exact ⟨column, nearer, level, resolved, stands⟩
  constructor
  case columns =>
    intro levels reference reads
    obtain ⟨column, nearer, level, resolved, stands⟩ := bound reads
    exact ⟨column, nearer, level, resolved, stands, stands.named?_iff⟩
  case apart =>
    intro levels reference reads apart
    obtain ⟨column, nearer, level, resolved, stands⟩ := bound reads
    exact ⟨column, resolved, stands.named?_iff.mpr (stands.unrivalled apart)⟩
  case once => exact (Query.hoisted_declares coherent).ordered.once
  case tables => exact Query.nodup_names_iff coherent

namespace Sample

/-! ### Names that are told apart -/

def parents : Select :=
  everyone.run [.filter (.exists false children)]

def family : Workshop where
  sources := [.ofTable child, .ofTable parent]
  selects := [parents, children, everyone.scope.select (.ofTable child), everyone]

theorem family_reachable : family.Reachable := by
  have first : Workshop.Reachable ⟨[.ofTable parent], []⟩ :=
    .source .empty (Source.from_ofTable parent) fun _ member => absurd member List.not_mem_nil
  have second : Workshop.Reachable ⟨[.ofTable child, .ofTable parent], []⟩ := by
    apply Workshop.Reachable.source first (Source.from_ofTable child)
    intro other member
    cases List.mem_singleton.mp member
    rfl
  have outer : Workshop.Reachable ⟨[.ofTable child, .ofTable parent], [everyone]⟩ :=
    second.select (.outermost ⟨.sqlite, none⟩ (List.mem_cons_of_mem _ List.mem_cons_self))
  have started : Workshop.Reachable ⟨[.ofTable child, .ofTable parent],
      [everyone.scope.select (.ofTable child), everyone]⟩ :=
    outer.select (.nested everyone.scope List.mem_cons_self)
  have filtered : Workshop.Reachable ⟨[.ofTable child, .ofTable parent],
      [children, everyone.scope.select (.ofTable child), everyone]⟩ :=
    started.takes List.mem_cons_self
      (.filter (.binary .equal (.column person key (.only child))
        (.column person key (.only parent)))) (Term.from_of_selects_eq_nil rfl) (by simp)
  apply filtered.takes (List.mem_cons_of_mem _ (List.mem_cons_of_mem _ List.mem_cons_self))
    (.filter (.exists false children))
  · intro select inTerm
    cases List.mem_singleton.mp inTerm
    exact List.mem_cons_self
  · simp

theorem parents_names :
    family.Reachable ∧ (∀ inner ∈ family.selects, inner.Placed (· ∈ family.selects)) ∧
      parents ∈ family.selects ∧ parents.failure = none ∧ parents.InSight [] ∧
        parents.query.NamesResolve Dialect.sqlite.windowClauses := by
  have filters (given : Select) (placed : given.Placed (· ∈ family.selects)) (condition : Term)
      (conditionPlaced : condition.PlacedIn (· ∈ family.selects) given.scope.visible) :
      (given.apply (.filter condition)).Placed (· ∈ family.selects) :=
    placed.step conditionPlaced
  have placed : ∀ inner ∈ family.selects, inner.Placed (· ∈ family.selects) := by
    have outer : everyone.Placed (· ∈ family.selects) := .outermost _ trivial
    have started : (everyone.scope.select (.ofTable child)).Placed (· ∈ family.selects) :=
      .nested _ trivial
    have filtered : children.Placed (· ∈ family.selects) := by
      apply filters _ started
      intro select inTerm
      cases inTerm
    have whole : parents.Placed (· ∈ family.selects) := by
      apply filters _ outer
      intro select inTerm
      cases List.mem_singleton.mp inTerm
      exact ⟨List.mem_cons_of_mem _ List.mem_cons_self, fun _ visible => visible⟩
    exact List.forall_mem_cons.mpr ⟨whole, List.forall_mem_cons.mpr ⟨filtered,
      List.forall_mem_cons.mpr ⟨started, List.forall_mem_singleton.mpr outer⟩⟩⟩
  have known : parents ∈ family.selects := List.mem_cons_self
  have fine : parents.failure = none := by rfl
  have outermost : parents.InSight [] := fun _ outer => outer
  exact ⟨family_reachable, placed, known, fine, outermost,
    Workshop.names_resolve family_reachable (fun _ made => made) placed known fine outermost _⟩

/-! ### Names that are not -/

def namesake : Alias := ⟨1, some "p", person⟩

def parentKey : ResolvedColumn := ⟨parent, person.info key⟩

def sameKey (left right : Alias) : Term :=
  .binary .equal (.column person key (.only left)) (.column person key (.only right))

/-- Those of one key, which is meant to be found in the enclosing scope. -/
def namesakes : Select :=
  (everyone.scope.select (.ofTable namesake)).run [.filter (sameKey namesake parent)]

def captured : Select :=
  everyone.run [.filter (.exists false namesakes)]

def twins : Select :=
  everyone.run [.join .inner (.ofTable namesake), .on (sameKey namesake parent)]

/-- Two common tables of one name. -/
def declaredTwice : Select :=
  (Database.select ⟨.sqlite, none⟩ ⟨⟨2, some "r", person⟩, .common everyone.query⟩).run
    [.join .cross ⟨⟨3, some "r", person⟩, .common parents.query⟩]

theorem namesakes_not_hygienic :
    (captured.failure = none ∧
      captured.text = .ok ("select p.* from PERSON as p where exists " ++
        "(select p.* from PERSON as p where p.KEY = p.KEY)") ∧
      ¬ captured.query.Hygienic Dialect.sqlite.windowClauses) ∧
    (twins.failure = none ∧
      twins.text = .ok "select p.*, p.* from PERSON as p join PERSON as p on p.KEY = p.KEY" ∧
      ¬ twins.query.Hygienic Dialect.sqlite.windowClauses) ∧
    (declaredTwice.failure = none ∧ ¬ declaredTwice.query.Hygienic Dialect.sqlite.windowClauses) ∧
    (children.failure = none ∧
      children.text = .ok "select c.* from PERSON as c where c.KEY = p.KEY" ∧
      ¬ children.query.Hygienic Dialect.sqlite.windowClauses) := by
  have broken {query : Query} {levels : List (List Alias)} {column : ResolvedColumn}
      (reads : query.Reads levels (.resolved column))
      (other : Alias.named? column.alias.displayName levels ≠ some column.alias) :
      ¬ query.Hygienic Dialect.sqlite.windowClauses := by
    intro hygienic
    obtain ⟨_, same, denotes⟩ := hygienic.columns _ _ reads
    cases same
    exact other denotes
  refine ⟨⟨rfl, rfl, ?_⟩, ⟨rfl, rfl, ?_⟩, ⟨rfl, ?_⟩, ⟨rfl, rfl, ?_⟩⟩
  · have inner : captured.query.HoldsIn [captured.query.aliases] namesakes.query :=
      .inExpr .self List.mem_cons_self List.mem_cons_self
    have reads : captured.query.Reads [[namesake], [parent]] (.resolved parentKey) :=
      .column inner List.mem_cons_self (List.mem_cons_of_mem _ List.mem_cons_self)
    exact broken reads (by decide)
  · have reads : twins.query.Reads [[parent, namesake]] (.resolved parentKey) :=
      .column .self List.mem_cons_self (List.mem_cons_of_mem _ List.mem_cons_self)
    exact broken reads (by decide)
  · intro hygienic
    exact absurd hygienic.tables (by decide)
  · have reads : children.query.Reads [[child]] (.resolved parentKey) :=
      .column .self List.mem_cons_self (List.mem_cons_of_mem _ List.mem_cons_self)
    exact broken reads (by decide)

end Sample

end SqlSelect
