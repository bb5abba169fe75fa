import SqlSelect.Proofs.Building.Change
import SqlSelect.Proofs.Prepared.Hoisting

/-!
# Aliases are told apart

A program makes sources, each under an alias of its own, and builds statements out of them
and of other statements.  An alias therefore stands for one source wherever it is met, and
the common tables of every statement are hoisted to one WITH clause ahead of it.
-/

namespace SqlSelect

/-- The source that a common table is. -/
def CommonQuery.source (common : CommonQuery) : Source :=
  ⟨common.alias, .common common.query⟩

/-! ## Where a common table is named -/

namespace Mention

/-- Some mentions name a common table. -/
def Name (mentions : List Mention) (common : CommonQuery) : Prop :=
  ∃ inner, .common common.alias common.query inner ∈ mentions

theorem name_append_iff {left right : List Mention} {common : CommonQuery} :
    Name (left ++ right) common ↔ Name left common ∨ Name right common := by
  simp [Name, exists_or]

theorem Name.flatMap {α : Type} {items : List α} {mentions : α → List Mention}
    {common : CommonQuery} (names : Name (items.flatMap mentions) common) :
    ∃ item ∈ items, Name (mentions item) common := by
  rcases names with ⟨inner, member⟩
  rcases List.mem_flatMap.mp member with ⟨item, known, member⟩
  exact ⟨item, known, inner, member⟩

theorem Name.behind_statement {operator : Option SetOperator} {query : Query}
    {rest : List Mention} {common : CommonQuery}
    (names : Name (.statement operator query :: rest) common) : Name rest common := by
  rcases names with ⟨inner, member⟩
  rcases List.mem_cons.mp member with same | member
  · cases same
  · exact ⟨inner, member⟩

/-- Whatever some mentions name, the queries among some leaves name. -/
def NamedIn (clauses : WindowClauses) (leaves : List Leaf) (mentions : List Mention) : Prop :=
  ∀ common, Name mentions common →
    ∃ nested, .query nested ∈ leaves ∧ nested.Names clauses common

namespace NamedIn

variable {clauses : WindowClauses} {leaves more : List Leaf} {mentions others : List Mention}

theorem nil : NamedIn clauses leaves [] := by
  rintro common ⟨_, member⟩
  cases member

theorem argument (value : Value) : NamedIn clauses leaves [.argument value] := by
  rintro common ⟨_, member⟩
  cases List.mem_singleton.mp member

theorem query (operator : Option SetOperator) (nested : Query) :
    NamedIn clauses [.query nested] (.statement operator nested :: nested.mentions clauses) := by
  intro common names
  exact ⟨nested, List.mem_singleton.mpr rfl, names.behind_statement⟩

theorem append (first : NamedIn clauses leaves mentions)
    (second : NamedIn clauses more others) :
    NamedIn clauses (leaves ++ more) (mentions ++ others) := by
  intro common names
  rcases name_append_iff.mp names with names | names
  · rcases first common names with ⟨nested, leaf, names⟩
    exact ⟨nested, List.mem_append_left more leaf, names⟩
  · rcases second common names with ⟨nested, leaf, names⟩
    exact ⟨nested, List.mem_append_right leaves leaf, names⟩

theorem optional (wanted : Bool) (named : NamedIn clauses leaves mentions) :
    NamedIn clauses leaves (if wanted then mentions else []) := by
  cases wanted with
  | false => exact nil
  | true => exact named

end NamedIn

end Mention

open Mention in
mutual

theorem Expr.namedIn (clauses : WindowClauses) (expr : Expr) :
    NamedIn clauses expr.leaves (expr.mentions clauses) := by
  cases expr with
  | argument value => exact .argument value
  | literal value =>
      rw [Expr.mentions]
      split
      · exact .nil
      · exact .argument value
  | column _ => exact .nil
  | countAll => exact .nil
  | not operand => exact operand.namedIn clauses
  | negate operand => exact operand.namedIn clauses
  | isNull _ operand => exact operand.namedIn clauses
  | cast operand _ => exact operand.namedIn clauses
  | binary _ left right => exact (left.namedIn clauses).append (right.namedIn clauses)
  | between _ operand low high =>
      exact ((operand.namedIn clauses).append (low.namedIn clauses)).append
        (high.namedIn clauses)
  | like _ operand pattern => exact (operand.namedIn clauses).append (pattern.namedIn clauses)
  | inList _ operand items =>
      exact (operand.namedIn clauses).append (Expr.listNamedIn clauses items)
  | inQuery _ operand query => exact (operand.namedIn clauses).append (.query none query)
  | «exists» _ query => exact .query none query
  | subquery query => exact .query none query
  | call _ _ arguments => exact Expr.listNamedIn clauses arguments
  | window _ arguments partition order =>
      have partitioned := (Expr.listNamedIn clauses partition).optional clauses.partition
      have ordered := (Expr.orderNamedIn clauses order).optional clauses.order
      rw [Expr.leaves, List.append_assoc]
      exact (Expr.listNamedIn clauses arguments).append (partitioned.append ordered)
  | case branches otherwise =>
      exact (Expr.branchNamedIn clauses branches).append (Expr.optionNamedIn clauses otherwise)
termination_by structural expr

theorem Expr.listNamedIn (clauses : WindowClauses) (exprs : List Expr) :
    NamedIn clauses (Expr.listLeaves exprs) (Expr.listMentions clauses exprs) := by
  cases exprs with
  | nil => exact .nil
  | cons expr rest => exact (expr.namedIn clauses).append (Expr.listNamedIn clauses rest)
termination_by structural exprs

theorem Expr.orderNamedIn (clauses : WindowClauses) (items : List (OrderItem Expr)) :
    NamedIn clauses (Expr.orderLeaves items) (Expr.orderMentions clauses items) := by
  cases items with
  | nil => exact .nil
  | cons item rest =>
      cases item with
      | mk expr _ => exact (expr.namedIn clauses).append (Expr.orderNamedIn clauses rest)
termination_by structural items

theorem Expr.branchNamedIn (clauses : WindowClauses) (branches : List (Branch Expr)) :
    NamedIn clauses (Expr.branchLeaves branches) (Expr.branchMentions clauses branches) := by
  cases branches with
  | nil => exact .nil
  | cons branch rest =>
      cases branch with
      | mk condition result =>
          exact ((condition.namedIn clauses).append (result.namedIn clauses)).append
            (Expr.branchNamedIn clauses rest)
termination_by structural branches

theorem Expr.optionNamedIn (clauses : WindowClauses) (expr : Option Expr) :
    NamedIn clauses (Expr.optionLeaves expr) (Expr.optionMentions clauses expr) := by
  cases expr with
  | none => exact .nil
  | some expr => exact expr.namedIn clauses
termination_by structural expr

end

namespace Query

variable {clauses : WindowClauses} {query : Query} {common : CommonQuery}

/-- The common table is a source of the query, or a query directly within names it. -/
def SourceOrNested (clauses : WindowClauses) (query : Query) (common : CommonQuery) : Prop :=
  common.source ∈ query.sources ∨
    ∃ nested, query.Nests nested ∧ nested.Names clauses common

namespace SourceOrNested

theorem expr {expr : Expr} (known : expr ∈ query.exprs)
    (names : Mention.Name (expr.mentions clauses) common) :
    query.SourceOrNested clauses common := by
  rcases expr.namedIn clauses common names with ⟨nested, leaf, names⟩
  exact .inr ⟨nested, .inExpr known leaf, names⟩

theorem option {condition : Option Expr}
    (known : ∀ expr, condition = some expr → expr ∈ query.exprs)
    (names : Mention.Name (Expr.optionMentions clauses condition) common) :
    query.SourceOrNested clauses common := by
  rw [Expr.optionMentions_eq] at names
  rcases names.flatMap with ⟨expr, found, names⟩
  exact .expr (known expr (Option.mem_toList.mp found)) names

theorem source {source : Source} (known : source ∈ query.sources)
    (names : Mention.Name (source.mentions clauses) common) :
    query.SourceOrNested clauses common := by
  rcases source with ⟨handle, relation⟩
  cases relation with
  | table | temporary =>
      rcases names with ⟨_, member⟩
      cases member
  | derived nested => exact .inr ⟨nested, .behind known rfl, names.behind_statement⟩
  | common nested =>
      rcases names with ⟨inner, member⟩
      rw [Source.mentions, List.mem_singleton, Mention.common.injEq] at member
      rcases member with ⟨rfl, rfl, _⟩
      exact .inl known

end SourceOrNested

/-- A common table that a query names is one of its sources, or named deeper within. -/
theorem Names.sourceOrNested (names : query.Names clauses common) :
    query.SourceOrNested clauses common := by
  have walked : Mention.Name (query.mentions clauses) common := names
  rw [mentions_eq] at walked
  simp only [Mention.name_append_iff] at walked
  rcases walked with ((((((projected | sourced) | joined) | filtered) | grouped) | kept) |
    united) | ordered
  · rw [projectionMentions_eq] at projected
    rcases projected.flatMap with ⟨projection, known, names⟩
    exact .expr (by grind [mem_exprs]) names
  · exact .source List.mem_cons_self sourced
  · rw [joinMentions_eq] at joined
    rcases joined.flatMap with ⟨join, known, names⟩
    rcases Mention.name_append_iff.mp names with names | names
    · have source : join.source ∈ query.sources :=
        List.mem_cons_of_mem _ (List.mem_map_of_mem known)
      exact .source source names
    · exact .option (by grind [mem_exprs]) names
  · exact .option (by grind [mem_exprs]) filtered
  · rw [Expr.listMentions_eq] at grouped
    rcases grouped.flatMap with ⟨expr, known, names⟩
    exact .expr (by grind [mem_exprs]) names
  · exact .option (by grind [mem_exprs]) kept
  · rw [operandMentions_eq] at united
    rcases united.flatMap with ⟨operand, known, names⟩
    exact .inr ⟨operand.query, .operand known, names.behind_statement⟩
  · rw [Expr.orderMentions_eq] at ordered
    rcases ordered.flatMap with ⟨item, known, names⟩
    exact .expr (by grind [mem_exprs]) names

end Query

/-! ## Statements from statements -/

variable {origin more : Select → Prop}

theorem Source.From.mono {source : Source} (sourced : source.From origin)
    (subset : ∀ select, origin select → more select) : source.From more := by
  intro query behind
  rcases sourced query behind with ⟨select, known, finished⟩
  exact ⟨select, subset select known, finished⟩

theorem Step.From.mono {step : Step} (sourced : step.From origin)
    (subset : ∀ select, origin select → more select) : step.From more := by
  cases step with
  | join _ _ => exact Source.From.mono sourced subset
  | union _ operand => exact subset operand sourced
  | on _ | extend _ _ | select _ _ | comma _ _ | filter _ | groupBy _ | having _ | orderBy _ _
  | thenBy _ _ => exact fun select inTerm => subset select (sourced select inTerm)
  | distinct | fetchFirst _ | offset _ | isolation _ | lock _ => trivial

theorem Select.Built.mono {select : Select} (built : select.Built origin)
    (subset : ∀ select, origin select → more select) : select.Built more := by
  induction built with
  | outermost database sourced => exact .outermost database (sourced.mono subset)
  | nested scope sourced => exact .nested scope (sourced.mono subset)
  | step _ sourced ih => exact ih.step (sourced.mono subset)

/-! ## The workshop -/

/-- What a program has made so far: its sources, and its statements in every state of their
building. -/
structure Workshop where
  sources : List Source
  selects : List Select

namespace Workshop

/-- A statement is started at one of the sources, or a step is taken that uses nothing but
what is there. -/
inductive Builds (shop : Workshop) : Select → Prop where
  | outermost (database : Database) {source : Source} :
      source ∈ shop.sources → Builds shop (database.select source)
  | nested (scope : Scope) {source : Source} :
      source ∈ shop.sources → Builds shop (scope.select source)
  | step {select : Select} {step : Step} :
      select ∈ shop.selects → step.From (· ∈ shop.selects) →
      (∀ kind source, step = .join kind source → source ∈ shop.sources) →
      Builds shop (select.apply step)

/-- What a program can make: sources, each under a new alias and out of statements that are
there, and statements. -/
inductive Reachable : Workshop → Prop where
  | empty : Reachable ⟨[], []⟩
  | source {shop : Workshop} {source : Source} :
      Reachable shop → source.From (· ∈ shop.selects) →
      (∀ other ∈ shop.sources, other.alias.same source.alias = false) →
      Reachable ⟨source :: shop.sources, shop.selects⟩
  | select {shop : Workshop} {select : Select} :
      Reachable shop → shop.Builds select → Reachable ⟨shop.sources, select :: shop.selects⟩

/-- The invariant of a workshop. -/
structure Sound (shop : Workshop) : Prop where
  /-- An alias stands for one source. -/
  distinct : ∀ left ∈ shop.sources, ∀ right ∈ shop.sources,
    left.alias.same right.alias = true → left = right
  behind : ∀ source ∈ shop.sources, source.From (· ∈ shop.selects)
  built : ∀ select ∈ shop.selects, select.Built (· ∈ shop.selects)
  sources : ∀ select ∈ shop.selects, ∀ source ∈ select.query.sources, source ∈ shop.sources
  /-- No statement names a common table that was not made. -/
  named : ∀ select ∈ shop.selects, ∀ clauses common,
    select.query.Names clauses common → common.source ∈ shop.sources

namespace Reachable

variable {shop : Workshop}

/-- A step that joins nothing needs no source. -/
theorem takes (reachable : shop.Reachable) {select : Select} (known : select ∈ shop.selects)
    (step : Step) (sourced : step.From (· ∈ shop.selects))
    (alone : ∀ kind source, step ≠ .join kind source) :
    Reachable ⟨shop.sources, select.apply step :: shop.selects⟩ :=
  .select reachable
    (.step known sourced fun kind source joins => absurd joins (alone kind source))

/-- The query of a statement becomes a common table under a new alias. -/
theorem shares (reachable : shop.Reachable) {common : CommonQuery} {select : Select}
    (known : select ∈ shop.selects) (finished : select.result = .ok common.query)
    (new : ∀ other ∈ shop.sources, other.alias.same common.alias = false) :
    Reachable ⟨common.source :: shop.sources, shop.selects⟩ := by
  apply Reachable.source reachable ?_ new
  intro query behind
  cases behind
  exact ⟨select, known, finished⟩

end Reachable

namespace Sound

variable {shop : Workshop}

theorem empty : Sound ⟨[], []⟩ := by
  constructor <;> exact fun _ member => absurd member List.not_mem_nil

theorem source (sound : shop.Sound) {source : Source}
    (sourced : source.From (· ∈ shop.selects))
    (new : ∀ other ∈ shop.sources, other.alias.same source.alias = false) :
    Sound ⟨source :: shop.sources, shop.selects⟩ := by
  constructor
  case distinct =>
    intro left leftMade right rightMade same
    rcases List.mem_cons.mp leftMade with rfl | leftOld
    · rcases List.mem_cons.mp rightMade with rfl | rightOld
      · rfl
      · rw [Alias.same_comm, new right rightOld] at same
        cases same
    · rcases List.mem_cons.mp rightMade with rfl | rightOld
      · rw [new left leftOld] at same
        cases same
      · exact sound.distinct left leftOld right rightOld same
  case behind => exact List.forall_mem_cons.mpr ⟨sourced, sound.behind⟩
  case built => exact sound.built
  case sources =>
    intro select member other known
    exact List.mem_cons_of_mem source (sound.sources select member other known)
  case named =>
    intro select member clauses common names
    exact List.mem_cons_of_mem source (sound.named select member clauses common names)

theorem built_of_builds (sound : shop.Sound) {select : Select} (builds : shop.Builds select) :
    select.Built (· ∈ shop.selects) := by
  cases builds with
  | outermost database made => exact .outermost database (sound.behind _ made)
  | nested scope made => exact .nested scope (sound.behind _ made)
  | step known sourced _ => exact .step (sound.built _ known) sourced

theorem sources_of_builds (sound : shop.Sound) {select : Select}
    (builds : shop.Builds select) : ∀ source ∈ select.query.sources, source ∈ shop.sources := by
  intro source member
  cases builds with
  | outermost _ made | nested _ made =>
      cases List.mem_singleton.mp member
      exact made
  | step known _ joined =>
      rcases Select.mem_sources_apply member with old | ⟨kind, joins⟩
      · exact sound.sources _ known source old
      · exact joined kind source joins

/-- What a new statement names is one of its sources, or named by a statement within it,
which was there before. -/
theorem named_of_builds (sound : shop.Sound) {select : Select} (builds : shop.Builds select)
    {clauses : WindowClauses} {common : CommonQuery} (names : select.query.Names clauses common) :
    common.source ∈ shop.sources := by
  rcases names.sourceOrNested with own | ⟨nested, nests, names⟩
  · exact sound.sources_of_builds builds _ own
  · rcases (sound.built_of_builds builds).sound.query.nests nests with ⟨inner, known, finished⟩
    rcases Select.result_eq_ok finished with ⟨_, rfl⟩
    exact sound.named inner known clauses common names

theorem select (sound : shop.Sound) {select : Select} (builds : shop.Builds select) :
    Sound ⟨shop.sources, select :: shop.selects⟩ := by
  have old : ∀ other ∈ shop.selects, other ∈ select :: shop.selects :=
    fun _ known => List.mem_cons_of_mem select known
  constructor
  case distinct => exact sound.distinct
  case behind =>
    intro source made
    exact (sound.behind source made).mono old
  case built =>
    rw [List.forall_mem_cons]
    refine ⟨(sound.built_of_builds builds).mono old, ?_⟩
    intro other known
    exact (sound.built other known).mono old
  case sources =>
    exact List.forall_mem_cons.mpr ⟨sound.sources_of_builds builds, sound.sources⟩
  case named =>
    rw [List.forall_mem_cons]
    refine ⟨?_, sound.named⟩
    intro clauses common names
    exact sound.named_of_builds builds names

/-- Whatever a statement reaches was made, and is told apart by its alias. -/
theorem coherent (sound : shop.Sound) {select : Select} (known : select ∈ shop.selects)
    (clauses : WindowClauses) : select.query.Coherent clauses := by
  have made : ∀ common, select.query.Reaches clauses common → common.source ∈ shop.sources := by
    intro common reaches
    induction reaches with
    | named names => exact sound.named select known clauses _ names
    | through _ names ih =>
        rcases sound.behind _ ih _ rfl with ⟨inner, innerKnown, finished⟩
        rcases Select.result_eq_ok finished with ⟨_, same⟩
        rw [same] at names
        exact sound.named inner innerKnown clauses _ names
  intro left right leftReached rightReached same
  have sources := sound.distinct _ (made left leftReached) _ (made right rightReached) same
  cases left
  cases right
  cases sources
  rfl

end Sound

theorem Reachable.sound {shop : Workshop} (reachable : shop.Reachable) : shop.Sound := by
  induction reachable with
  | empty => exact .empty
  | source _ sourced new ih => exact ih.source sourced new
  | select _ builds ih => exact ih.select builds

/-- In every statement of a program that can be prepared, the common tables are declared in
one WITH clause ahead of the whole statement: those it reaches, once each and in the order
of their use. -/
theorem prepare_hoists {shop : Workshop} (reachable : shop.Reachable) {select : Select}
    (known : select ∈ shop.selects) {prepared : Prepared}
    (built : select.prepare = .ok prepared) :
    select.query.Hoists select.scope.database prepared :=
  Select.hoists_of_coherent (reachable.sound.coherent known _) built

end Workshop

namespace Sample

def entry : Source := .ofTable ⟨0, some "e", staff⟩

/-- How the number of one of the staff is to compare with another. -/
def numbered (operator : BinaryOperator) (other : Int64) : Term :=
  .binary operator (.column staff number .any) (.value (.bigInt other))

def shop : Workshop where
  sources := [recent.source, entry]
  selects := [select, database.select recent.source, recentSelect, database.select entry]

theorem shop_reachable : shop.Reachable := by
  have plain : Workshop.Reachable ⟨[entry], []⟩ :=
    .source .empty (Source.from_ofTable _) fun _ member => absurd member List.not_mem_nil
  have started : Workshop.Reachable ⟨[entry], [database.select entry]⟩ :=
    .select plain (.outermost database List.mem_cons_self)
  have filtered : Workshop.Reachable ⟨[entry], [recentSelect, database.select entry]⟩ :=
    started.takes List.mem_cons_self (.filter (numbered .greater 5))
      (Term.from_of_selects_eq_nil rfl) (by simp)
  have common :
      Workshop.Reachable ⟨[recent.source, entry], [recentSelect, database.select entry]⟩ := by
    apply filtered.shares List.mem_cons_self rfl
    simp [entry, recent, Source.ofTable, Alias.same]
  have again : Workshop.Reachable ⟨[recent.source, entry],
      [database.select recent.source, recentSelect, database.select entry]⟩ :=
    .select common (.outermost database List.mem_cons_self)
  exact again.takes List.mem_cons_self (.filter (numbered .less 9))
    (Term.from_of_selects_eq_nil rfl) (by simp)

/-! ### Two common tables that share a third -/

def low : CommonQuery := ⟨⟨2, some "l", staff⟩, select.query⟩

/-- The recent ones above seven. -/
def highSelect : Select :=
  (database.select recent.source).apply (.filter (numbered .greater 7))

def high : CommonQuery := ⟨⟨3, some "h", staff⟩, highSelect.query⟩

/-- The low ones, if there are high ones. -/
def spread : Select :=
  (database.select low.source).apply (.filter (.exists false (database.select high.source)))

def spreadShop : Workshop where
  sources := high.source :: low.source :: shop.sources
  selects := spread :: database.select low.source :: database.select high.source ::
    highSelect :: shop.selects

theorem spreadShop_reachable : spreadShop.Reachable := by
  have filtered : Workshop.Reachable ⟨shop.sources, highSelect :: shop.selects⟩ :=
    shop_reachable.takes (.tail _ List.mem_cons_self) (.filter (numbered .greater 7))
      (Term.from_of_selects_eq_nil rfl) (by simp)
  have one : Workshop.Reachable ⟨low.source :: shop.sources, highSelect :: shop.selects⟩ := by
    apply filtered.shares (.tail _ List.mem_cons_self) rfl
    simp [shop, entry, recent, low, CommonQuery.source, Source.ofTable, Alias.same]
  have both : Workshop.Reachable
      ⟨high.source :: low.source :: shop.sources, highSelect :: shop.selects⟩ := by
    apply one.shares List.mem_cons_self rfl
    simp [shop, entry, recent, low, high, CommonQuery.source, Source.ofTable, Alias.same]
  have inner := both.select (.outermost database List.mem_cons_self)
  have outer := inner.select (.outermost database (List.mem_cons_of_mem _ List.mem_cons_self))
  apply outer.takes List.mem_cons_self (.filter (.exists false (database.select high.source)))
  · simp [Step.From, Term.From, Term.selects]
  · simp

/-- What is read from `spread` on its database. -/
def spreadPrepared : Prepared where
  text := "with r as (select e.* from EMPLOYEE as e where e.ID > $1), " ++
    "l as (select r.* from r where r.ID < $2), h as (select r.* from r where r.ID > $3) " ++
    "select l.* from l where exists (select h.* from h)"
  arguments := [.integer 5, .integer 9, .integer 7]

set_option maxRecDepth 2000 in
theorem spread_hoists :
    spreadShop.Reachable ∧ spread ∈ spreadShop.selects ∧
      spread.prepare = .ok spreadPrepared ∧
      spread.query.hoisted database.dialect.windowClauses = [recent, low, high] ∧
      spread.query.Hoists spread.scope.database spreadPrepared := by
  have built : spread.prepare = .ok spreadPrepared := by rfl
  have known : spread ∈ spreadShop.selects := List.mem_cons_self
  exact ⟨spreadShop_reachable, known, built, by rfl,
    Workshop.prepare_hoists spreadShop_reachable known built⟩

end Sample

end SqlSelect
