import SqlSelect.Proofs.Prepared.Fault
import SqlSelect.Proofs.Prepared.Workshop

/-!
# What a dialect refuses

A statement is refused only where leaving something out would change what it means: local
temporary tables, row numbers without an order, and locks that are kept.  It is refused if
one of these stands anywhere in what is rendered for it, and for nothing else.
-/

namespace SqlSelect

/-- A query is rendered as a part of another: where it stands, in whatever is rendered, or
also, if the `whole` statement is meant, behind the name of a common table. -/
inductive Query.Renders (whole : Bool) (clauses : WindowClauses) (query : Query) :
    Query → Prop where
  | self : Renders whole clauses query query
  | inExpr {middle nested : Query} {expr part : Expr} :
      Renders whole clauses query middle → expr ∈ middle.exprs →
      expr.Contains clauses part → part.query? = some nested →
      Renders whole clauses query nested
  | behind {middle nested : Query} {source : Source} :
      Renders whole clauses query middle → source ∈ middle.sources →
      source.relation.body? whole = some nested → Renders whole clauses query nested
  | operand {middle : Query} {operand : Operand} :
      Renders whole clauses query middle → operand ∈ middle.operands →
      Renders whole clauses query operand.query

/-- A query uses a feature that a dialect does not have, apart from the queries within it. -/
inductive Query.Lacks (dialect : Dialect) (query : Query) : Feature → Prop where
  | temporary {source : Source} :
      source ∈ query.sources → source.relation = .temporary →
      dialect.temporaryName? source.alias.table.name = none →
      Lacks dialect query .temporaryTables
  | unordered {expr : Expr} {arguments partition : List Expr} {order : List (OrderItem Expr)} :
      expr ∈ query.exprs →
      expr.Contains dialect.windowClauses (.window .rowNumber arguments partition order) →
      dialect.rowNumberNeedsOrder = true → order = [] ∨ dialect.supportsWindowOrder = false →
      Lacks dialect query .unorderedRowNumber
  | lock {lock : LockLevel} :
      query.lock = some lock → dialect.locks? query.isolation lock = none →
      Lacks dialect query (.keptLocks lock)

/-- Why a query cannot be written, apart from the queries within it. -/
inductive Query.Bears (dialect : Dialect) (query : Query) : QueryError → Prop where
  | inExpr {expr part : Expr} {error : QueryError} :
      expr ∈ query.exprs → expr.Contains dialect.windowClauses part →
      part.refusal? dialect = some error → Bears dialect query error
  | source {source : Source} {error : QueryError} :
      source ∈ query.sources → source.refusal? dialect = some error → Bears dialect query error
  | locking {error : QueryError} :
      query.refusal? dialect = some error → Bears dialect query error

section Rendering

variable {whole : Bool} {clauses : WindowClauses} {database : Database} {dialect : Dialect}
variable {query nested : Query} {expr part : Expr} {error : QueryError}

/-! ## Every fault is that of something rendered -/

namespace Query

theorem Renders.trans {middle : Query} (outer : query.Renders whole clauses middle)
    (inner : middle.Renders whole clauses nested) : query.Renders whole clauses nested := by
  induction inner with
  | self => exact outer
  | inExpr _ member contains holds ih => exact .inExpr ih member contains holds
  | behind _ member body ih => exact .behind ih member body
  | operand _ member ih => exact .operand ih member

end Query

theorem Relation.query?_of_body? {relation : Relation} (body : relation.body? whole = some nested) :
    relation.query? = some nested := by
  cases relation with
  | table | temporary => cases body
  | derived _ => exact body
  | common _ =>
      simp only [body?, Option.ite_none_right_eq_some] at body
      exact body.2

/-- A fault of an expression is that of an expression within, or of a query within. -/
theorem Expr.contains_of_fault (member : error ∈ expr.faults whole database) :
    (∃ part, expr.Contains database.dialect.windowClauses part ∧
      part.refusal? database.dialect = some error) ∨
    ∃ part nested, expr.Contains database.dialect.windowClauses part ∧
      part.query? = some nested ∧ error ∈ nested.faults whole database := by
  induction expr using induction_on_parts with
  | step expr ih =>
      rw [faults_eq] at member
      split at member
      case h_1 own refused =>
        rw [List.mem_singleton.mp member]
        exact .inl ⟨expr, .self, refused⟩
      case h_2 =>
        rcases List.mem_append.mp member with member | member
        · obtain ⟨first, known, member⟩ := List.mem_flatMap.mp member
          have ahead : expr.Contains database.dialect.windowClauses first := .part .self known
          rcases ih first (mem_parts_all known) member with
            ⟨part, contains, refused⟩ | ⟨part, nested, contains, holds, member⟩
          · exact .inl ⟨part, ahead.trans contains, refused⟩
          · exact .inr ⟨part, nested, ahead.trans contains, holds, member⟩
        · obtain ⟨nested, holds, member⟩ := List.mem_flatMap.mp member
          exact .inr ⟨expr, nested, .self, Option.mem_toList.mp holds, member⟩

/-- A fault of a query is that of a query rendered for it. -/
theorem Query.bears_of_fault (member : error ∈ query.faults whole database) :
    ∃ nested, query.Renders whole database.dialect.windowClauses nested ∧
      nested.Bears database.dialect error := by
  induction query using induction_on_nests with
  | step query ih =>
      rcases (query.mem_faults_iff whole database).mp member with
        ⟨expr, known, member⟩ | ⟨source, known, refused | ⟨nested, body, member⟩⟩ |
        ⟨operand, known, member⟩ | refused
      · rcases expr.contains_of_fault member with
          ⟨part, contains, refused⟩ | ⟨part, nested, contains, holds, member⟩
        · exact ⟨query, .self, .inExpr known contains refused⟩
        · obtain ⟨inner, renders, bears⟩ :=
            ih nested (.inExpr known (contains.query_leaf holds)) member
          exact ⟨inner, (Renders.inExpr .self known contains holds).trans renders, bears⟩
      · exact ⟨query, .self, .source known refused⟩
      · obtain ⟨inner, renders, bears⟩ :=
          ih nested (.behind known (Relation.query?_of_body? body)) member
        exact ⟨inner, (Renders.behind .self known body).trans renders, bears⟩
      · obtain ⟨inner, renders, bears⟩ := ih operand.query (.operand known) member
        exact ⟨inner, (Renders.operand .self known).trans renders, bears⟩
      · exact ⟨query, .self, .locking refused⟩

theorem Query.fault_of_prepare (fails : query.prepare database = .error error) :
    error ∈ query.faults true database := by
  simp only [prepare, except_bind_error, except_pure_error, and_false, exists_false,
    or_false] at fails
  rcases fails with unwritable | ⟨_, _, undeclared⟩
  · have member := (Lexeme.fault_mem_allPieces _).mp (Piece.fault_of_check unwritable)
    exact Lexeme.allFaults_whole _ member
  · exact Lexeme.fault_of_declareAll _ undeclared

/-! ## No fault is hidden -/

namespace Expr

theorem fault_of_refusal? (refused : expr.refusal? database.dialect = some error) :
    error ∈ expr.faults whole database := by
  rw [faults_eq, refused]
  exact List.mem_singleton_self error

/-- A fault of a part leaves a fault in the expression, if only its own. -/
theorem faulty_of_part (known : part ∈ expr.parts database.dialect.windowClauses)
    (faulty : ∃ error, error ∈ part.faults whole database) :
    ∃ error, error ∈ expr.faults whole database := by
  obtain ⟨error, member⟩ := faulty
  rw [faults_eq]
  split
  case h_1 own _ => exact ⟨own, List.mem_singleton_self own⟩
  case h_2 =>
    exact ⟨error, List.mem_append_left _ (List.mem_flatMap.mpr ⟨part, known, member⟩)⟩

theorem faulty_of_contains (contains : expr.Contains database.dialect.windowClauses part)
    (faulty : ∃ error, error ∈ part.faults whole database) :
    ∃ error, error ∈ expr.faults whole database := by
  induction contains with
  | self => exact faulty
  | part _ known ih => exact ih (faulty_of_part known faulty)

theorem faulty_of_query? (holds : expr.query? = some nested)
    (faulty : ∃ error, error ∈ nested.faults whole database) :
    ∃ error, error ∈ expr.faults whole database := by
  obtain ⟨error, member⟩ := faulty
  rw [faults_eq, holds]
  split
  case h_1 own _ => exact ⟨own, List.mem_singleton_self own⟩
  case h_2 =>
    have inner : error ∈ [nested].flatMap (Query.faults whole database) := by
      rw [List.flatMap_singleton]
      exact member
    exact ⟨error, List.mem_append_right _ inner⟩

end Expr

namespace Query

theorem faulty_of_mem_exprs (known : expr ∈ query.exprs)
    (faulty : ∃ error, error ∈ expr.faults whole database) :
    ∃ error, error ∈ query.faults whole database := by
  obtain ⟨error, member⟩ := faulty
  exact ⟨error, (query.mem_faults_iff whole database).mpr (.inl ⟨expr, known, member⟩)⟩

/-- A fault of a query leaves a fault in all that it is rendered for. -/
theorem Renders.faulty (renders : query.Renders whole database.dialect.windowClauses nested)
    (faulty : ∃ error, error ∈ nested.faults whole database) :
    ∃ error, error ∈ query.faults whole database := by
  induction renders with
  | self => exact faulty
  | inExpr _ known contains holds ih =>
      apply ih
      apply faulty_of_mem_exprs known
      exact Expr.faulty_of_contains contains (Expr.faulty_of_query? holds faulty)
  | behind _ known body ih =>
      obtain ⟨error, member⟩ := faulty
      exact ih ⟨error, (mem_faults_iff whole database _).mpr
        (.inr (.inl ⟨_, known, .inr ⟨_, body, member⟩⟩))⟩
  | operand _ known ih =>
      obtain ⟨error, member⟩ := faulty
      exact ih ⟨error, (mem_faults_iff whole database _).mpr
        (.inr (.inr (.inl ⟨_, known, member⟩)))⟩

/-- A feature that is missing is a fault of the query that uses it. -/
theorem Lacks.faulty {feature : Feature} (lacks : query.Lacks database.dialect feature) :
    ∃ error, error ∈ query.faults whole database := by
  cases lacks with
  | @temporary source known temporary missing =>
      have refused : source.refusal? database.dialect =
          some (.unsupported database.dialect .temporaryTables) := by
        simp [Source.refusal?, temporary, missing]
      exact ⟨_, (mem_faults_iff whole database _).mpr (.inr (.inl ⟨source, known, .inl refused⟩))⟩
  | @unordered _ arguments partition order known contains needs missing =>
      have refused : (Expr.window .rowNumber arguments partition order).refusal?
          database.dialect = some (.unsupported database.dialect .unorderedRowNumber) := by
        rcases missing with rfl | missing <;> simp [Expr.refusal?, *]
      apply faulty_of_mem_exprs known
      exact Expr.faulty_of_contains contains ⟨_, Expr.fault_of_refusal? refused⟩
  | @lock lock known missing =>
      have refused : query.refusal? database.dialect =
          some (.unsupported database.dialect (.keptLocks lock)) := by
        simp [refusal?, known, missing]
      exact ⟨_, (mem_faults_iff whole database _).mpr (.inr (.inr (.inr refused)))⟩

/-- Every column in the expressions of a query, so far as they are written, is bound. -/
def Bound (clauses : WindowClauses) (query : Query) : Prop :=
  ∀ expr ∈ query.exprs, ∀ reference, expr.Contains clauses (.column reference) →
    ∃ column, reference = .resolved column

/-- Where every column is bound, nothing but a feature can be refused. -/
theorem Bears.lacks (bears : query.Bears dialect error)
    (bound : query.Bound dialect.windowClauses) :
    ∃ feature, query.Lacks dialect feature ∧ error = .unsupported dialect feature := by
  cases bears with
  | @inExpr expr part _ known contains refused =>
      cases part with
      | column reference =>
          obtain ⟨column, rfl⟩ := bound expr known reference contains
          cases refused
      | window function arguments partition order =>
          simp only [Expr.refusal?, Option.ite_none_right_eq_some, Option.some.injEq] at refused
          obtain ⟨⟨rfl, needs, missing⟩, rfl⟩ := refused
          refine ⟨_, .unordered known contains needs ?_, rfl⟩
          cases order with
          | nil => exact .inl rfl
          | cons _ _ => exact .inr missing
      | _ => cases refused
  | @source source _ known refused =>
      cases relation : source.relation with
      | temporary =>
          simp only [Source.refusal?, relation, Option.ite_none_right_eq_some, Option.some.injEq,
            Option.isNone_iff_eq_none] at refused
          obtain ⟨missing, rfl⟩ := refused
          exact ⟨_, .temporary known relation missing, rfl⟩
      | table | derived _ | common _ =>
          simp only [Source.refusal?, relation] at refused
          cases refused
  | locking refused =>
      cases lock : query.lock with
      | none =>
          simp only [refusal?, lock] at refused
          cases refused
      | some level =>
          simp only [refusal?, lock, Option.ite_none_right_eq_some, Option.some.injEq,
            Option.isNone_iff_eq_none] at refused
          obtain ⟨missing, rfl⟩ := refused
          exact ⟨_, .lock lock missing, rfl⟩

end Query

/-! ## What is rendered is written in place, or declared -/

theorem Expr.branchMentions_eq (branches : List (Branch Expr)) :
    branchMentions clauses branches =
      (branches.flatMap Branch.both).flatMap (mentions clauses) := by
  induction branches with
  | nil => rfl
  | cons branch rest ih => simp [branchMentions, Branch.both, ih]

theorem Expr.mentions_of_part (known : part ∈ expr.parts clauses) {mention : Mention}
    (member : mention ∈ part.mentions clauses) : mention ∈ expr.mentions clauses := by
  have walked : mention ∈ (expr.parts clauses).flatMap (mentions clauses) :=
    List.mem_flatMap.mpr ⟨part, known, member⟩
  cases expr with
  | window _ arguments partition order =>
      cases clauses with
      | mk partitioned ordered =>
          cases partitioned <;> cases ordered <;>
            simpa [parts, mentions, listMentions_eq, orderMentions_eq, List.flatMap_map,
              Function.comp_def] using walked
  | case branches otherwise =>
      simpa [parts, mentions, branchMentions_eq, optionMentions_eq] using walked
  | argument _ | literal _ | column _ | countAll | «exists» _ _ | subquery _ => cases known
  | inQuery _ operand _ =>
      rw [List.mem_singleton.mp known] at member
      exact List.mem_append_left _ member
  | _ => simpa [parts, mentions, listMentions_eq] using walked

theorem Expr.mentions_of_contains (contains : expr.Contains clauses part) {mention : Mention}
    (member : mention ∈ part.mentions clauses) : mention ∈ expr.mentions clauses := by
  induction contains with
  | self => exact member
  | part _ known ih => exact ih (mentions_of_part known member)

theorem Expr.mentions_of_query? (holds : expr.query? = some nested) {mention : Mention}
    (member : mention ∈ nested.mentions clauses) : mention ∈ expr.mentions clauses := by
  cases expr with
  | inQuery _ _ _ | «exists» _ _ | subquery _ =>
      cases holds
      simp [mentions, member]
  | _ => cases holds

namespace Query

theorem mentions_of_mem_exprs (known : expr ∈ query.exprs) {mention : Mention}
    (member : mention ∈ expr.mentions clauses) : mention ∈ query.mentions clauses := by
  simp only [mem_exprs] at known
  simp only [mentions_eq, projectionMentions_eq, joinMentions_eq, Expr.optionMentions_eq,
    Expr.listMentions_eq, Expr.orderMentions_eq, List.mem_append, List.mem_flatMap,
    Option.mem_toList]
  grind

theorem mentions_of_mem_sources {source : Source} (known : source ∈ query.sources)
    {mention : Mention} (member : mention ∈ source.mentions clauses) :
    mention ∈ query.mentions clauses := by
  simp only [sources, List.mem_cons, List.mem_map] at known
  simp only [mentions_eq, joinMentions_eq, List.mem_append, List.mem_flatMap]
  grind

/-- What a query mentions is mentioned wherever the query is written in place. -/
theorem Renders.mentions (renders : query.Renders false clauses nested) {mention : Mention}
    (member : mention ∈ nested.mentions clauses) : mention ∈ query.mentions clauses := by
  induction renders with
  | self => exact member
  | inExpr _ known contains holds ih =>
      apply ih
      apply mentions_of_mem_exprs known
      exact Expr.mentions_of_contains contains (Expr.mentions_of_query? holds member)
  | @behind _ _ source _ known body ih =>
      apply ih
      apply mentions_of_mem_sources known
      cases source with
      | mk handle relation =>
          cases relation with
          | derived _ =>
              cases body
              exact List.mem_cons_of_mem _ member
          | table | temporary | common _ => cases body
  | @operand _ operand _ known ih =>
      apply ih
      rw [mentions_eq, operandMentions_eq]
      simp only [List.mem_append, List.mem_flatMap]
      exact .inl (.inr ⟨operand, known, List.mem_cons_of_mem _ member⟩)

/-- A source that is a common table is named by every query it is written in. -/
theorem Renders.names (renders : query.Renders false clauses nested) {handle : Alias}
    {body : Query} (known : ⟨handle, .common body⟩ ∈ nested.sources) :
    query.Names clauses ⟨handle, body⟩ := by
  refine ⟨body.mentions clauses, renders.mentions (mentions_of_mem_sources known ?_)⟩
  exact List.mem_singleton_self _

/-- A query is rendered in place, or in the place where a common table is declared. -/
theorem Renders.placed (renders : query.Renders true clauses nested) :
    query.Renders false clauses nested ∨
      ∃ common, query.Reaches clauses common ∧ common.query.Renders false clauses nested := by
  induction renders with
  | self => exact .inl .self
  | inExpr _ known contains holds ih =>
      rcases ih with inPlace | ⟨common, reaches, declared⟩
      · exact .inl (.inExpr inPlace known contains holds)
      · exact .inr ⟨common, reaches, .inExpr declared known contains holds⟩
  | operand _ known ih =>
      rcases ih with inPlace | ⟨common, reaches, declared⟩
      · exact .inl (.operand inPlace known)
      · exact .inr ⟨common, reaches, .operand declared known⟩
  | @behind middle nested source _ known body ih =>
      cases source with
      | mk handle relation =>
          cases relation with
          | table | temporary => cases body
          | derived _ =>
              rcases ih with inPlace | ⟨common, reaches, declared⟩
              · exact .inl (.behind inPlace known body)
              · exact .inr ⟨common, reaches, .behind declared known body⟩
          | common held =>
              cases body
              rcases ih with inPlace | ⟨common, reaches, declared⟩
              · exact .inr ⟨⟨handle, nested⟩, .named (inPlace.names known), .self⟩
              · exact .inr ⟨⟨handle, nested⟩, .through reaches (declared.names known), .self⟩

theorem Renders.eq_or_holds (renders : query.Renders whole clauses nested) :
    nested = query ∨ query.Holds nested := by
  have step {middle inner : Query} (outer : middle = query ∨ query.Holds middle)
      (nests : middle.Nests inner) : query.Holds inner := by
    rcases outer with rfl | holds
    · exact .direct nests
    · exact .within holds nests
  induction renders with
  | self => exact .inl rfl
  | inExpr _ known contains holds ih =>
      exact .inr (step ih (.inExpr known (contains.query_leaf holds)))
  | behind _ known body ih =>
      exact .inr (step ih (.behind known (Relation.query?_of_body? body)))
  | operand _ known ih => exact .inr (step ih (.operand known))

/-- Where all common tables are told apart, a missing feature is not passed over. -/
theorem not_prepares_of_lacks (coherent : query.Coherent database.dialect.windowClauses)
    (renders : query.Renders true database.dialect.windowClauses nested) {feature : Feature}
    (lacks : nested.Lacks database.dialect feature) {prepared : Prepared} :
    query.prepare database ≠ .ok prepared := by
  intro built
  have prepares := prepares_of_prepare built
  have silent {written : Query}
      (writable : Lexeme.Writable database.dialect (written.lexemes database))
      (inPlace : written.Renders false database.dialect.windowClauses nested) : False := by
    obtain ⟨error, member⟩ := inPlace.faulty lacks.faulty
    rw [faults, Lexeme.writable_iff.mp writable] at member
    cases member
  rcases renders.placed with inPlace | ⟨common, reaches, inPlace⟩
  · exact silent prepares.writable inPlace
  · have declared : common ∈ query.hoisted database.dialect.windowClauses := by
      rw [(hoisted_declares coherent).mem_iff, Mention.leads_mentions_iff]
      exact .inr reaches
    exact silent (prepares.tables common declared).writable inPlace

/-- Preparing a query fails only for missing features, and just where one is used. -/
structure FailsExactly (database : Database) (query : Query) : Prop where
  /-- Either there is a text, or the dialect does not have some feature. -/
  outcome : (∃ prepared, query.prepare database = .ok prepared) ∨
    ∃ feature, query.prepare database = .error (.unsupported database.dialect feature)
  /-- It fails just if a query that is rendered for it uses such a feature. -/
  exact : (∃ error, query.prepare database = .error error) ↔
    ∃ nested feature, query.Renders true database.dialect.windowClauses nested ∧
      nested.Lacks database.dialect feature
  /-- The feature that is told is one of those. -/
  told : ∀ feature, query.prepare database = .error (.unsupported database.dialect feature) →
    ∃ nested, query.Renders true database.dialect.windowClauses nested ∧
      nested.Lacks database.dialect feature
  /-- Every column that is rendered is bound. -/
  bound : ∀ nested, query.Renders true database.dialect.windowClauses nested →
    nested.Bound database.dialect.windowClauses

theorem failsExactly (coherent : query.Coherent database.dialect.windowClauses)
    (bound : ∀ nested, query.Renders true database.dialect.windowClauses nested →
      nested.Bound database.dialect.windowClauses) : query.FailsExactly database := by
  have fails (error : QueryError) (failed : query.prepare database = .error error) :
      ∃ nested feature, query.Renders true database.dialect.windowClauses nested ∧
        nested.Lacks database.dialect feature ∧ error = .unsupported database.dialect feature := by
    obtain ⟨nested, renders, bears⟩ := bears_of_fault (fault_of_prepare failed)
    obtain ⟨feature, lacks, same⟩ := bears.lacks (bound nested renders)
    exact ⟨nested, feature, renders, lacks, same⟩
  constructor
  case outcome =>
    cases outcome : query.prepare database with
    | ok prepared => exact .inl ⟨prepared, rfl⟩
    | error error =>
        obtain ⟨_, feature, _, _, rfl⟩ := fails error outcome
        exact .inr ⟨feature, rfl⟩
  case exact =>
    constructor
    · rintro ⟨error, failed⟩
      obtain ⟨nested, feature, renders, lacks, _⟩ := fails error failed
      exact ⟨nested, feature, renders, lacks⟩
    · rintro ⟨nested, feature, renders, lacks⟩
      cases outcome : query.prepare database with
      | ok prepared => exact (not_prepares_of_lacks coherent renders lacks outcome).elim
      | error error => exact ⟨error, rfl⟩
  case told =>
    intro feature failed
    obtain ⟨nested, _, renders, lacks, same⟩ := fails _ failed
    cases same
    exact ⟨nested, renders, lacks⟩
  case bound => exact bound

end Query

namespace Workshop

/-- Whatever is rendered for a statement is the query of a statement of the program. -/
theorem select_of_renders {shop : Workshop} (sound : shop.Sound) {select : Select}
    (known : select ∈ shop.selects) (renders : select.query.Renders whole clauses nested) :
    ∃ inner ∈ shop.selects, inner.query = nested := by
  rcases renders.eq_or_holds with rfl | holds
  · exact ⟨select, known, rfl⟩
  · obtain ⟨inner, innerKnown, _, same⟩ :=
      (sound.built select known).origin_of_holds sound.built holds
    exact ⟨inner, innerKnown, same⟩

/-- A statement without an error is prepared for any database, unless something that is
rendered for it uses a feature the dialect does not have. -/
theorem prepare_failsExactly {shop : Workshop} (reachable : shop.Reachable) {select : Select}
    (known : select ∈ shop.selects) (fine : select.failure = none) :
    select.prepare = select.query.prepare select.scope.database ∧
      ∀ database, select.query.FailsExactly database := by
  constructor
  · rw [Select.prepare, Select.result, Select.proceed, fine]
    rfl
  · intro database
    apply Query.failsExactly (reachable.sound.coherent known _)
    intro nested renders expr member reference contains
    obtain ⟨inner, innerKnown, rfl⟩ := select_of_renders reachable.sound known renders
    have closed := (reachable.sound.built inner innerKnown).sound.query.closed
    obtain ⟨column, same, _⟩ := closed.exprs expr member reference contains.column_leaf
    exact ⟨column, same⟩

end Workshop

end Rendering

/-! ## A lock in the query of a common table -/

namespace Sample

def keptSelect : Select :=
  recentSelect.apply (.lock .update)

def kept : CommonQuery := ⟨⟨2, some "k", staff⟩, keptSelect.query⟩

def keeping : Select :=
  database.select kept.source

def lockingShop : Workshop where
  sources := kept.source :: shop.sources
  selects := keeping :: keptSelect :: shop.selects

theorem lockingShop_reachable : lockingShop.Reachable := by
  have locked : Workshop.Reachable ⟨shop.sources, keptSelect :: shop.selects⟩ :=
    shop_reachable.takes (List.mem_cons_of_mem _ (List.mem_cons_of_mem _ List.mem_cons_self))
      (.lock .update) trivial (by simp)
  have declared :
      Workshop.Reachable ⟨kept.source :: shop.sources, keptSelect :: shop.selects⟩ := by
    apply locked.shares List.mem_cons_self rfl
    simp [shop, kept, recent, entry, CommonQuery.source, Source.ofTable, Alias.same]
  exact .select declared (.outermost database List.mem_cons_self)

theorem keeping_failsExactly :
    lockingShop.Reachable ∧ keeping ∈ lockingShop.selects ∧ keeping.failure = none ∧
      keeping.query.prepare ⟨.sqlite, none⟩ =
        .error (.unsupported .sqlite (.keptLocks .update)) ∧
      keeping.prepare = keeping.query.prepare keeping.scope.database ∧
      ∀ database, keeping.query.FailsExactly database := by
  have known : keeping ∈ lockingShop.selects := List.mem_cons_self
  have fine : keeping.failure = none := rfl
  have refused : keeping.query.prepare ⟨.sqlite, none⟩ =
      .error (.unsupported .sqlite (.keptLocks .update)) := by rfl
  exact ⟨lockingShop_reachable, known, fine, refused,
    Workshop.prepare_failsExactly lockingShop_reachable known fine⟩

end Sample

end SqlSelect
