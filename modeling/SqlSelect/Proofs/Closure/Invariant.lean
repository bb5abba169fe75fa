import SqlSelect.Proofs.Closure.Binding

/-!
# Scope closure

While a statement is built, its scope, its query and the conditions of its joins are
kept in step: the scope lists what was joined, every column is bound to an alias in
sight, and a join condition to one that stands ahead of it in the FROM tree.  The
statements within it were built the same way, each in a scope of its own.
-/

namespace SqlSelect

/-- A reference is bound to one of some aliases, and that alias exposes the column. -/
def ColumnReference.BoundTo (aliases : List Alias) (reference : ColumnReference) : Prop :=
  ∃ column, reference = .resolved column ∧ column.alias ∈ aliases ∧
    column.alias.exposes column.column = true

/-- Every column of an expression, outside its sub-queries, is bound to one of some
aliases. -/
def Expr.ClosedOver (aliases : List Alias) (expr : Expr) : Prop :=
  ∀ reference, .column reference ∈ expr.leaves → reference.BoundTo aliases

/-- A query refers to its own sources and to the enclosing levels `outer` alone. -/
structure Query.ClosedWithin (outer : List (List Alias)) (query : Query) : Prop where
  exprs : ∀ expr ∈ query.exprs, expr.ClosedOver (query.aliases ++ outer.flatten)
  /-- The condition of a join refers to no source behind the joined one. -/
  joins : ∀ (index : Nat) (join : Join) (on : Expr), query.joins[index]? = some join →
    join.on = some on → on.ClosedOver (query.aliases.take (index + 2) ++ outer.flatten)

/-- A statement has taken some aliases: that of its first source, and behind it those of the
sources that were joined, in their order. -/
inductive Select.Takes : Select → List Alias → Prop where
  | outermost (database : Database) (source : Source) :
      Takes (database.select source) [source.alias]
  | nested (scope : Scope) (source : Source) : Takes (scope.select source) [source.alias]
  | join {select : Select} {aliases : List Alias} (kind : JoinKind) (source : Source) :
      Takes select aliases → select.stage.mayJoin = true →
      Takes (select.apply (.join kind source)) (aliases ++ [source.alias])
  /-- No other step takes an alias, and neither does a join out of place. -/
  | other {select : Select} {aliases : List Alias} (step : Step) :
      Takes select aliases →
      (∀ kind source, step = .join kind source → select.stage.mayJoin = false) →
      Takes (select.apply step) aliases

/-- The scope of a statement is that of its query, and the query is closed in it. -/
structure Select.Closed (select : Select) : Prop where
  nearest : select.scope.nearest = select.query.aliases
  /-- The nearest level lists what the statement has taken. -/
  taken : ∀ aliases, select.Takes aliases ↔ aliases = select.scope.nearest
  query : select.query.ClosedWithin select.scope.enclosing

/-! ## Statements from statements -/

/-- The query behind a source, if there is one, is that of a statement of `origin`. -/
def Source.From (origin : Select → Prop) (source : Source) : Prop :=
  ∀ query, source.relation.query? = some query →
    ∃ select, origin select ∧ select.result = .ok query

/-- No query is behind a table. -/
theorem Source.from_ofTable {origin : Select → Prop} (handle : Alias) :
    (Source.ofTable handle).From origin := by
  intro query behind
  cases behind

/-- The statements in a term are of `origin`. -/
def Term.From (origin : Select → Prop) (term : Term) : Prop :=
  ∀ select ∈ term.selects, origin select

/-- Nothing is asked of a term without statements. -/
theorem Term.from_of_selects_eq_nil {origin : Select → Prop} {term : Term}
    (none : term.selects = []) : term.From origin := by
  rw [Term.From, none]
  exact fun _ member => absurd member List.not_mem_nil

/-- The statements in a step are of `origin`. -/
def Step.From (origin : Select → Prop) : Step → Prop
  | .join _ source => source.From origin
  | .union _ operand => origin operand
  | .on term | .extend _ term | .select term _ | .comma term _ | .filter term | .groupBy term
  | .having term | .orderBy term _ | .thenBy term _ => term.From origin
  | .distinct | .fetchFirst _ | .offset _ | .isolation _ | .lock _ => True

/-- A statement is built by steps, from a first source and out of the statements of
`origin`. -/
inductive Select.Built (origin : Select → Prop) : Select → Prop where
  | outermost (database : Database) {source : Source} :
      source.From origin → Built origin (database.select source)
  | nested (scope : Scope) {source : Source} :
      source.From origin → Built origin (scope.select source)
  | step {select : Select} {step : Step} :
      Built origin select → step.From origin → Built origin (select.apply step)

/-! ## The invariant -/

/-- A column is bound to one of some aliases, and a query is that of a statement of
`origin`. -/
def Leaf.Sound (origin : Select → Prop) (aliases : List Alias) : Leaf → Prop
  | .column reference => reference.BoundTo aliases
  | .query nested => ∃ select, origin select ∧ select.result = .ok nested

def Expr.Sound (origin : Select → Prop) (aliases : List Alias) (expr : Expr) : Prop :=
  ∀ leaf ∈ expr.leaves, leaf.Sound origin aliases

/-- What every step preserves of a query. -/
structure Query.Sound (origin : Select → Prop) (outer : List (List Alias)) (query : Query) :
    Prop where
  exprs : ∀ expr ∈ query.exprs, expr.Sound origin (query.aliases ++ outer.flatten)
  joins : ∀ (index : Nat) (join : Join) (on : Expr), query.joins[index]? = some join →
    join.on = some on → on.Sound origin (query.aliases.take (index + 2) ++ outer.flatten)
  sources : ∀ source ∈ query.sources, source.From origin
  operands : ∀ operand ∈ query.operands,
    ∃ select, origin select ∧ select.result = .ok operand.query

/-- What every step preserves of a statement. -/
structure Select.Sound (origin : Select → Prop) (select : Select) : Prop where
  nearest : select.scope.nearest = select.query.aliases
  query : select.query.Sound origin select.scope.enclosing

variable {origin : Select → Prop} {outer : List (List Alias)} {query : Query}

theorem Expr.Sound.mono {aliases more : List Alias} {expr : Expr}
    (sound : expr.Sound origin aliases) (subset : ∀ handle ∈ aliases, handle ∈ more) :
    expr.Sound origin more := by
  intro leaf member
  have leafSound := sound leaf member
  cases leaf with
  | query _ => exact leafSound
  | column reference =>
      rcases leafSound with ⟨column, same, visible, exposes⟩
      exact ⟨column, same, subset _ visible, exposes⟩

theorem Expr.Sound.binary {aliases : List Alias} {left right : Expr}
    (operator : BinaryOperator) (leftSound : left.Sound origin aliases)
    (rightSound : right.Sound origin aliases) :
    (Expr.binary operator left right).Sound origin aliases := by
  intro leaf member
  rcases List.mem_append.mp member with member | member
  · exact leftSound leaf member
  · exact rightSound leaf member

/-- An entry of a list with one more entry is an old one, or the last. -/
theorem getElem?_snoc {α : Type} {entries : List α} {last entry : α} {index : Nat}
    (found : (entries ++ [last])[index]? = some entry) :
    index < entries.length ∧ entries[index]? = some entry ∨
      index = entries.length ∧ entry = last := by
  by_cases old : index < entries.length
  · rw [List.getElem?_append_left old] at found
    exact .inl ⟨old, found⟩
  · rw [List.getElem?_append_right (Nat.le_of_not_lt old)] at found
    rcases List.getElem?_eq_some_iff.mp found with ⟨bound, rfl⟩
    rw [List.length_singleton] at bound
    exact .inr ⟨by omega, List.getElem_singleton bound⟩

namespace Query

theorem length_aliases : query.aliases.length = query.joins.length + 1 := by
  simp [aliases, sources]

theorem sources_mapLastOn (query : Query) (change : Option Expr → Expr) :
    (query.mapLastOn change).sources = query.sources := by
  rcases List.eq_nil_or_concat query.joins with none | ⟨earlier, last, joins⟩
  · simp [mapLastOn, none]
  · rw [List.concat_eq_append] at joins
    simp [mapLastOn, sources, joins]

theorem mem_exprs {expr : Expr} : expr ∈ query.exprs ↔
    (∃ projection ∈ query.projection, projection.expr = expr) ∨
    (∃ join ∈ query.joins, join.on = some expr) ∨ query.filter = some expr ∨
    expr ∈ query.groupBy ∨ query.having = some expr ∨
    ∃ item ∈ query.orderBy, item.expr = expr := by
  simp [exprs]

/-- A query is written anew with one more expression in its clauses. -/
structure Writes (query written : Query) (expr : Expr) : Prop where
  source : written.source = query.source
  joins : written.joins = query.joins
  operands : written.operands = query.operands
  exprs : ∀ other ∈ written.exprs, other ∈ query.exprs ∨ other = expr

theorem writes_projection (expr : Expr) (label : Option String) :
    query.Writes { query with projection := query.projection ++ [⟨expr, label⟩] } expr :=
  ⟨rfl, rfl, rfl, by grind [mem_exprs]⟩

theorem writes_groupBy (expr : Expr) :
    query.Writes { query with groupBy := query.groupBy ++ [expr] } expr :=
  ⟨rfl, rfl, rfl, by grind [mem_exprs]⟩

theorem writes_orderBy (expr : Expr) (descending : Bool) :
    query.Writes { query with orderBy := query.orderBy ++ [⟨expr, descending⟩] } expr :=
  ⟨rfl, rfl, rfl, by grind [mem_exprs]⟩

theorem writes_filter (expr : Expr) :
    query.Writes { query with filter := some expr } expr :=
  ⟨rfl, rfl, rfl, by grind [mem_exprs]⟩

theorem writes_having (expr : Expr) :
    query.Writes { query with having := some expr } expr :=
  ⟨rfl, rfl, rfl, by grind [mem_exprs]⟩

namespace Sound

theorem closed (sound : query.Sound origin outer) : query.ClosedWithin outer := by
  constructor
  · intro expr member reference leaf
    exact sound.exprs expr member _ leaf
  · intro index join on found condition reference leaf
    exact sound.joins index join on found condition _ leaf

/-- Every query that stands directly within is that of a statement of `origin`. -/
theorem nests (sound : query.Sound origin outer) {nested : Query} (nests : query.Nests nested) :
    ∃ select, origin select ∧ select.result = .ok nested := by
  cases nests with
  | inExpr member leaf => exact sound.exprs _ member _ leaf
  | behind member behind => exact sound.sources _ member _ behind
  | operand member => exact sound.operands _ member

/-- A clause may be given one new expression. -/
theorem write (sound : query.Sound origin outer) {written : Query} {expr : Expr}
    (writes : query.Writes written expr)
    (exprSound : expr.Sound origin (query.aliases ++ outer.flatten)) :
    written.Sound origin outer := by
  have sources : written.sources = query.sources := by
    rw [Query.sources, writes.source, writes.joins, Query.sources]
  have aliases : written.aliases = query.aliases := by
    rw [Query.aliases, sources, Query.aliases]
  constructor
  · intro other member
    rw [aliases]
    rcases writes.exprs other member with known | rfl
    · exact sound.exprs other known
    · exact exprSound
  · rw [aliases, writes.joins]
    exact sound.joins
  · rw [sources]
    exact sound.sources
  · rw [writes.operands]
    exact sound.operands

theorem ofSource {source : Source} (sourced : source.From origin) :
    (Query.ofSource source).Sound origin outer := by
  constructor
  · intro expr member
    simp [Query.ofSource, Query.exprs] at member
  · intro index join on found
    simp [Query.ofSource] at found
  · intro other member
    cases List.mem_singleton.mp member
    exact sourced
  · intro operand member
    simp [Query.ofSource] at member

/-- A joined source comes into sight behind those before it, and has no condition yet. -/
theorem join (sound : query.Sound origin outer) {source : Source}
    (sourced : source.From origin) (kind : JoinKind) :
    Query.Sound origin outer { query with joins := query.joins ++ [⟨kind, source, none⟩] } := by
  have sources : Query.sources { query with joins := query.joins ++ [⟨kind, source, none⟩] } =
      query.sources ++ [source] := by
    simp [Query.sources]
  have aliases : Query.aliases { query with joins := query.joins ++ [⟨kind, source, none⟩] } =
      query.aliases ++ [source.alias] := by
    simp [Query.aliases, sources]
  constructor
  · intro expr member
    have known : expr ∈ query.exprs := by
      simpa [Query.mem_exprs, or_and_right, exists_or] using member
    apply (sound.exprs expr known).mono
    intro handle visible
    rw [aliases]
    rcases List.mem_append.mp visible with own | enclosing
    · exact List.mem_append_left _ (List.mem_append_left _ own)
    · exact List.mem_append_right _ enclosing
  · intro index join on found condition
    rcases getElem?_snoc found with ⟨old, found⟩ | ⟨_, rfl⟩
    · rw [aliases, List.take_append_of_le_length (by rw [length_aliases]; omega)]
      exact sound.joins index join on found condition
    · cases condition
  · rw [sources]
    intro other member
    rcases List.mem_append.mp member with known | new
    · exact sound.sources other known
    · cases List.mem_singleton.mp new
      exact sourced
  · exact sound.operands

/-- The condition of the last join may be changed: all sources are ahead of it. -/
theorem mapLastOn (sound : query.Sound origin outer) {change : Option Expr → Expr}
    (changed : ∀ existing : Option Expr,
      (∀ on, existing = some on → on.Sound origin (query.aliases ++ outer.flatten)) →
      (change existing).Sound origin (query.aliases ++ outer.flatten)) :
    (query.mapLastOn change).Sound origin outer := by
  have sources := query.sources_mapLastOn change
  rcases List.eq_nil_or_concat query.joins with none | ⟨earlier, last, joins⟩
  · simpa [Query.mapLastOn, none] using sound
  · rw [List.concat_eq_append] at joins
    have written : query.mapLastOn change =
        { query with joins := earlier ++ [{ last with on := some (change last.on) }] } := by
      simp [Query.mapLastOn, joins]
    have aliases : (query.mapLastOn change).aliases = query.aliases := by
      rw [Query.aliases, sources, Query.aliases]
    have lastSound : (change last.on).Sound origin (query.aliases ++ outer.flatten) := by
      apply changed
      intro on condition
      exact sound.exprs on (mem_exprs.mpr (.inr (.inl ⟨last, by simp [joins], condition⟩)))
    constructor
    · intro expr member
      rw [aliases]
      rw [written, mem_exprs] at member
      have known : expr ∈ query.exprs ∨ expr = change last.on := by
        rw [mem_exprs, joins]
        grind
      rcases known with known | rfl
      · exact sound.exprs expr known
      · exact lastSound
    · intro index join on found condition
      rw [aliases]
      rw [written] at found
      rcases getElem?_snoc found with ⟨old, found⟩ | ⟨rfl, rfl⟩
      · apply sound.joins index join on ?_ condition
        rw [joins, List.getElem?_append_left old]
        exact found
      · cases condition
        rw [List.take_of_length_le (by rw [length_aliases, joins]; simp)]
        exact lastSound
    · rw [sources]
      exact sound.sources
    · rw [written]
      exact sound.operands

end Sound

end Query

/-! ## The scope behind a step -/

/-- The scope behind a step. -/
def Step.widen (scope : Scope) : Step → Scope
  | .join _ source => scope.plus source.alias
  | _ => scope

namespace Select

variable {select : Select}

@[simp] theorem scope_amend (result : Except QueryError Query) :
    (select.amend result).scope = select.scope := by
  cases result <;> rfl

theorem scope_edit (step : Step) : (select.edit step).scope = step.widen select.scope := by
  cases step with
  | extend _ _ =>
      rw [edit]
      split
      · exact scope_amend _
      · rfl
  | comma _ _ =>
      rw [edit]
      split <;> exact scope_amend _
  | on _ | select _ _ | filter _ | groupBy _ | having _ | orderBy _ _ | thenBy _ _
  | union _ _ => exact scope_amend _
  | join _ _ | distinct | fetchFirst _ | offset _ | isolation _ | lock _ => rfl

theorem scope_apply {step : Step} {stage : Stage} (allowed : step.next? select.stage = some stage) :
    (select.apply step).scope = step.widen select.scope := by
  rw [apply, allowed]
  exact scope_edit step

theorem nearest_apply_join (kind : JoinKind) (source : Source)
    (open? : select.stage.mayJoin = true) :
    (select.apply (.join kind source)).scope.nearest = select.scope.nearest ++ [source.alias] := by
  have allowed : ∃ next, (Step.join kind source).next? select.stage = some next := by
    cases kind <;> simp [Step.next?, open?]
  obtain ⟨_, allowed⟩ := allowed
  rw [scope_apply allowed]
  rfl

theorem nearest_apply_other {step : Step}
    (other : ∀ kind source, step = .join kind source → select.stage.mayJoin = false) :
    (select.apply step).scope.nearest = select.scope.nearest := by
  cases allowed : step.next? select.stage with
  | none => rw [apply, allowed]
  | some _ =>
      rw [scope_apply allowed]
      cases step with
      | join kind source =>
          have closed := other kind source rfl
          cases kind <;> simp [Step.next?, closed] at allowed
      | _ => rfl

theorem Takes.nearest {aliases : List Alias} (takes : select.Takes aliases) :
    aliases = select.scope.nearest := by
  induction takes with
  | outermost _ _ | nested _ _ => rfl
  | join kind source _ open? ih => rw [nearest_apply_join kind source open?, ih]
  | other step _ elsewhere ih => rw [nearest_apply_other elsewhere, ih]

/-- Whatever was built has taken the aliases of its nearest level. -/
theorem Built.takes (built : select.Built origin) : select.Takes select.scope.nearest := by
  induction built with
  | outermost database _ => exact .outermost database _
  | nested scope _ => exact .nested scope _
  | @step select step _ _ ih =>
      by_cases joins : ∃ kind source, step = .join kind source ∧ select.stage.mayJoin = true
      · obtain ⟨kind, source, rfl, open?⟩ := joins
        rw [nearest_apply_join kind source open?]
        exact ih.join kind source open?
      · have elsewhere : ∀ kind source, step = .join kind source →
            select.stage.mayJoin = false := by
          intro kind source same
          exact Bool.eq_false_iff.mpr fun open? => joins ⟨kind, source, same, open?⟩
        rw [nearest_apply_other elsewhere]
        exact ih.other step elsewhere

/-! ## Steps -/

namespace Sound

theorem start {scope : Scope} (empty : scope.nearest = []) {source : Source}
    (sourced : source.From origin) : (Select.start scope source).Sound origin := by
  constructor
  · simp [Select.start, Query.ofSource, Query.aliases, Query.sources, empty]
  · exact .ofSource sourced

/-- A term is bound to the aliases in sight. -/
theorem bindTerm (sound : select.Sound origin) {term : Term} (sourced : term.From origin)
    {expr : Expr} (binds : select.bindTerm term = .ok expr) :
    expr.Sound origin (select.query.aliases ++ select.scope.enclosing.flatten) := by
  simp only [Select.bindTerm, except_bind_ok] at binds
  rcases binds with ⟨_, _, assembled, assembles, binds⟩
  intro leaf member
  rcases assembled.bind_leaves binds leaf member with ⟨original, known, leafBinds⟩
  have unbound := term.assemble_leaves assembles original known
  cases original with
  | query nested =>
      cases leafBinds
      rcases unbound with ⟨inner, inTerm, finished⟩
      exact ⟨inner, sourced inner inTerm, finished⟩
  | column reference =>
      rcases unbound with ⟨column, hint, rfl⟩
      simp only [Leaf.bind, ColumnReference.resolve, except_bind_ok, except_pure_ok] at leafBinds
      rcases leafBinds with ⟨resolved, resolves, rfl⟩
      rw [← sound.nearest]
      exact ⟨resolved, rfl, Scope.resolve_visible resolves⟩

theorem amend (sound : select.Sound origin) {result : Except QueryError Query}
    (made : ∀ query, result = .ok query → query.aliases = select.query.aliases ∧
      query.Sound origin select.scope.enclosing) : (select.amend result).Sound origin := by
  cases result with
  | error _ => exact ⟨sound.nearest, sound.query⟩
  | ok query =>
      rcases made query rfl with ⟨aliases, querySound⟩
      refine ⟨?_, querySound⟩
      rw [show (select.amend (.ok query)).query.aliases = query.aliases from rfl, aliases]
      exact sound.nearest

/-- A step that binds one term and changes the query by it. -/
theorem amend_bind (sound : select.Sound origin) {term : Term} (sourced : term.From origin)
    {change : Expr → Except QueryError Query}
    (changed : ∀ expr,
      expr.Sound origin (select.query.aliases ++ select.scope.enclosing.flatten) →
      ∀ query, change expr = .ok query → query.aliases = select.query.aliases ∧
        query.Sound origin select.scope.enclosing) :
    (select.amend (select.bindTerm term >>= change)).Sound origin := by
  apply sound.amend
  intro query made
  rcases except_bind_ok.mp made with ⟨expr, binds, made⟩
  exact changed expr (sound.bindTerm sourced binds) query made

theorem join (sound : select.Sound origin) {source : Source} (sourced : source.From origin)
    (kind : JoinKind) : (select.join kind source).Sound origin := by
  constructor
  · simp [Select.join, sound.nearest, Query.aliases, Query.sources]
  · exact sound.query.join sourced kind

/-- A step that binds one term and writes it into a clause. -/
theorem amend_write (sound : select.Sound origin) {term : Term} (sourced : term.From origin)
    {change : Expr → Query}
    (writes : ∀ expr, expr.Sound origin
        (select.query.aliases ++ select.scope.enclosing.flatten) →
      ∃ written, written.Sound origin
          (select.query.aliases ++ select.scope.enclosing.flatten) ∧
        select.query.Writes (change expr) written) :
    (select.amend do return change (← select.bindTerm term)).Sound origin := by
  apply sound.amend_bind sourced
  intro expr exprSound query made
  cases made
  rcases writes expr exprSound with ⟨written, writtenSound, writes⟩
  refine ⟨?_, sound.query.write writes writtenSound⟩
  rw [Query.aliases, Query.sources, writes.source, writes.joins, Query.aliases, Query.sources]

theorem project (sound : select.Sound origin) {term : Term} (sourced : term.From origin)
    (label : Option String) : (select.project term label).Sound origin :=
  sound.amend_write sourced fun expr exprSound =>
    ⟨expr, exprSound, Query.writes_projection expr label⟩

theorem group (sound : select.Sound origin) {term : Term} (sourced : term.From origin) :
    (select.group term).Sound origin :=
  sound.amend_write sourced fun expr exprSound =>
    ⟨expr, exprSound, Query.writes_groupBy expr⟩

theorem order (sound : select.Sound origin) {term : Term} (sourced : term.From origin)
    (descending : Bool) : (select.order term descending).Sound origin :=
  sound.amend_write sourced fun expr exprSound =>
    ⟨expr, exprSound, Query.writes_orderBy expr descending⟩

theorem on (sound : select.Sound origin) {term : Term} (sourced : term.From origin) :
    (select.amend do select.query.joinOn (← select.bindTerm term)).Sound origin := by
  apply sound.amend_bind sourced
  intro expr exprSound query made
  have changed : (select.query.mapLastOn fun _ => expr).Sound origin select.scope.enclosing :=
    sound.query.mapLastOn fun _ _ => exprSound
  rw [Query.joinOn] at made
  split at made
  · split at made
    · cases made
      rw [Query.aliases, Query.sources_mapLastOn]
      exact ⟨rfl, changed⟩
    · cases made
  · cases made
    exact ⟨rfl, sound.query⟩

/-- An extended condition holds the old one and the new one. -/
theorem extendCondition {aliases : List Alias} {existing : Option Expr} {condition : Expr}
    (existingSound : ∀ expr, existing = some expr → expr.Sound origin aliases)
    (connective : Connective) (conditionSound : condition.Sound origin aliases) :
    (Query.extendCondition existing connective condition).Sound origin aliases := by
  cases existing with
  | none => exact conditionSound
  | some left => exact .binary _ (existingSound left rfl) conditionSound

theorem extend (sound : select.Sound origin) {term : Term} (sourced : term.From origin)
    (connective : Connective) (clause : Clause) :
    (select.amend do
      return select.query.extendClause connective (← select.bindTerm term) clause).Sound
        origin := by
  cases clause with
  | on =>
      apply sound.amend_bind sourced
      intro expr exprSound query made
      cases made
      rw [Query.extendClause, Query.aliases, Query.sources_mapLastOn]
      refine ⟨rfl, sound.query.mapLastOn ?_⟩
      intro existing existingSound
      exact extendCondition existingSound connective exprSound
  | filter =>
      apply sound.amend_write sourced
      intro expr exprSound
      refine ⟨_, extendCondition ?_ connective exprSound, Query.writes_filter _⟩
      intro existing known
      exact sound.query.exprs existing (by simp [Query.mem_exprs, known])
  | having =>
      apply sound.amend_write sourced
      intro expr exprSound
      refine ⟨_, extendCondition ?_ connective exprSound, Query.writes_having _⟩
      intro existing known
      exact sound.query.exprs existing (by simp [Query.mem_exprs, known])

theorem unite (sound : select.Sound origin) {operand : Select} (known : origin operand)
    (operator : SetOperator) : (select.unite operator operand).Sound origin := by
  apply sound.amend
  intro query made
  simp only [except_bind_ok] at made
  rcases made with ⟨_, _, nested, finished, made⟩
  cases made
  refine ⟨rfl, sound.query.exprs, sound.query.joins, sound.query.sources, ?_⟩
  intro other member
  rcases List.mem_append.mp member with old | new
  · exact sound.query.operands other old
  · cases List.mem_singleton.mp new
    exact ⟨operand, known, finished⟩

/-- What a step does to a statement, apart from its stage, preserves the invariant. -/
theorem edit (sound : select.Sound origin) {step : Step} (sourced : step.From origin) :
    (select.edit step).Sound origin := by
  cases step with
  | join kind source => exact sound.join sourced kind
  | on condition => exact sound.on sourced
  | extend connective condition =>
      rw [Select.edit]
      split
      · exact sound.extend sourced connective _
      · exact sound
  | select term label =>
      have projected := sound.project sourced label
      exact ⟨projected.nearest, projected.query⟩
  | comma term label =>
      rw [Select.edit]
      split
      · have projected := sound.project sourced label
        exact ⟨projected.nearest, projected.query⟩
      · exact sound.group sourced
  | filter condition =>
      exact sound.amend_write sourced fun expr exprSound =>
        ⟨expr, exprSound, Query.writes_filter expr⟩
  | having condition =>
      exact sound.amend_write sourced fun expr exprSound =>
        ⟨expr, exprSound, Query.writes_having expr⟩
  | groupBy term => exact sound.group sourced
  | orderBy term descending => exact sound.order sourced descending
  | thenBy term descending => exact sound.order sourced descending
  | union operator operand => exact sound.unite sourced operator
  | distinct | fetchFirst _ | offset _ | isolation _ | lock _ =>
      -- The clauses that hold expressions or queries stay what they are.
      have query := sound.query
      exact ⟨sound.nearest, query.exprs, query.joins, query.sources, query.operands⟩

theorem apply (sound : select.Sound origin) {step : Step} (sourced : step.From origin) :
    (select.apply step).Sound origin := by
  rw [Select.apply]
  split
  · have edited := sound.edit sourced
    exact ⟨edited.nearest, edited.query⟩
  · exact sound

end Sound

/-- Every statement under construction keeps the invariant. -/
theorem Built.sound (built : select.Built origin) : select.Sound origin := by
  induction built with
  | outermost database sourced => exact .start rfl sourced
  | nested scope sourced => exact .start rfl sourced
  | step _ sourced ih => exact ih.apply sourced

theorem Built.run (built : select.Built origin) {steps : List Step}
    (sourced : ∀ step ∈ steps, step.From origin) : (select.run steps).Built origin := by
  induction steps generalizing select with
  | nil => exact built
  | cons step rest ih =>
      rw [run_cons]
      apply ih
      · exact built.step (sourced step List.mem_cons_self)
      · intro other member
        exact sourced other (List.mem_cons_of_mem step member)

/-- Every query within a statement, at any depth, is that of a statement of `origin`. -/
theorem Built.origin_of_holds (origins : ∀ inner, origin inner → inner.Built origin)
    (built : select.Built origin) {nested : Query} (holds : select.query.Holds nested) :
    ∃ inner, origin inner ∧ inner.failure = none ∧ inner.query = nested := by
  have finish {query : Query} (known : ∃ inner, origin inner ∧ inner.result = .ok query) :
      ∃ inner, origin inner ∧ inner.failure = none ∧ inner.query = query := by
    obtain ⟨inner, isOrigin, finished⟩ := known
    obtain ⟨fine, same⟩ := Select.result_eq_ok finished
    exact ⟨inner, isOrigin, fine, same.symm⟩
  induction holds with
  | direct nests => exact finish (built.sound.query.nests nests)
  | within _ nests ih =>
      obtain ⟨middle, isOrigin, _, rfl⟩ := ih
      exact finish ((origins middle isOrigin).sound.query.nests nests)

theorem Built.closed (built : select.Built origin) : select.Closed := by
  constructor
  case nearest => exact built.sound.nearest
  case taken =>
    intro aliases
    constructor
    · exact Takes.nearest
    · rintro rfl
      exact built.takes
  case query => exact built.sound.query.closed

/-- Scopes are closed: in every statement that is built by steps, and in every statement
within it, at any depth, with respect to the scope that one was built in. -/
theorem Built.scopes_closed (origins : ∀ inner, origin inner → inner.Built origin)
    (built : select.Built origin) :
    select.Closed ∧ ∀ nested, select.query.Holds nested →
      ∃ inner, origin inner ∧ inner.failure = none ∧ inner.query = nested ∧ inner.Closed := by
  refine ⟨built.closed, ?_⟩
  have finish {nested : Query}
      (known : ∃ inner, origin inner ∧ inner.result = .ok nested) :
      ∃ inner, origin inner ∧ inner.failure = none ∧ inner.query = nested ∧ inner.Closed := by
    rcases known with ⟨inner, isOrigin, finished⟩
    rcases Select.result_eq_ok finished with ⟨fine, rfl⟩
    exact ⟨inner, isOrigin, fine, rfl, (origins inner isOrigin).closed⟩
  intro nested holds
  induction holds with
  | direct nests => exact finish (built.sound.query.nests nests)
  | within _ nests ih =>
      rcases ih with ⟨middle, isOrigin, _, rfl, _⟩
      exact finish ((origins middle isOrigin).sound.query.nests nests)

end Select

/-! ## A join condition that goes on with a sub-query -/

namespace Sample

def key : Column := ⟨"key", "KEY", .bigInt, false, false, true⟩

def person : Table := ⟨"person", "PERSON", none, [key]⟩

def parent : Alias := ⟨0, some "p", person⟩

def child : Alias := ⟨1, some "c", person⟩

def everyone : Select :=
  Database.select ⟨.sqlite, none⟩ (.ofTable parent)

/-- The children of one parent, who is found in the enclosing scope. -/
def children : Select :=
  (everyone.scope.select (.ofTable child)).run
    [.filter (.binary .equal (.column person key (.only child))
      (.column person key (.only parent)))]

def partner : Alias := ⟨2, some "k", person⟩

/-- Pairs of a parent and a partner, with any third person. -/
def pairs : Select :=
  everyone.run
    [.join .inner (.ofTable partner),
      .on (.binary .equal (.column person key (.only partner))
        (.column person key (.only parent))),
      .extend .and (.exists false children),
      .join .cross (.ofTable child)]

set_option maxRecDepth 2000 in
theorem pairs_closed :
    (∀ inner, inner = children → inner.Built (· = children)) ∧ pairs.Built (· = children) ∧
      pairs.failure = none ∧ pairs.scope.nearest = [parent, partner, child] ∧
      pairs.text = .ok ("select p.*, k.*, c.* from PERSON as p " ++
        "join PERSON as k on k.KEY = p.KEY and exists (" ++
        "select c.* from PERSON as c where c.KEY = p.KEY) cross join PERSON as c") ∧
      pairs.Closed ∧
        ∀ nested, pairs.query.Holds nested → ∃ inner, inner = children ∧
          inner.failure = none ∧ inner.query = nested ∧ inner.Closed := by
  have origins : ∀ inner, inner = children → inner.Built (· = children) := by
    rintro _ rfl
    apply (Select.Built.nested everyone.scope (Source.from_ofTable child)).run
    simp [Step.From, Term.From, Term.selects]
  have built : pairs.Built (· = children) := by
    apply (Select.Built.outermost ⟨.sqlite, none⟩ (Source.from_ofTable parent)).run
    simp [Step.From, Term.From, Term.selects, Source.from_ofTable]
  have fine : pairs.failure = none := by rfl
  exact ⟨origins, built, fine, by rfl, by rfl, Select.Built.scopes_closed origins built⟩

end Sample

end SqlSelect
