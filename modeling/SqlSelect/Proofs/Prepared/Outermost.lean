import SqlSelect.Proofs.Building.Twin
import SqlSelect.Proofs.Prepared.Refusal

/-!
# Only the outermost database matters

Every statement is made for a database of its own, also one that ends up within another.  Two
programs that do the same for different databases make the same statements but for that.  When
a statement is prepared, its own database spells all that is rendered for it, at any depth.
-/

namespace SqlSelect

/-! ## Two programs -/

namespace Workshop

variable {shop other : Workshop} {select twin : Select} {source twinSource : Source}

/-- Two programs have made these statements at the same time. -/
def Twins (shop other : Workshop) (select twin : Select) : Prop :=
  (select, twin) ∈ shop.selects.zip other.selects

/-- Two programs have made these sources at the same time. -/
def TwinSources (shop other : Workshop) (source twin : Source) : Prop :=
  (source, twin) ∈ shop.sources.zip other.sources

theorem Twins.mem (twins : shop.Twins other select twin) : select ∈ shop.selects :=
  (List.of_mem_zip twins).1

theorem TwinSources.mem (twins : shop.TwinSources other source twinSource) :
    source ∈ shop.sources :=
  (List.of_mem_zip twins).1

/-- Two programs start a statement, each for a database of its own, or take the same step. -/
inductive BuildsTwins (shop other : Workshop) : Select → Select → Prop where
  | outermost (database otherDatabase : Database) {source twin : Source} :
      shop.TwinSources other source twin →
      BuildsTwins shop other (database.select source) (otherDatabase.select twin)
  | nested {scope otherScope : Scope} {source twin : Source} :
      scope.levels = otherScope.levels → shop.TwinSources other source twin →
      BuildsTwins shop other (scope.select source) (otherScope.select twin)
  | step {select twin : Select} {left right : Step} :
      shop.Twins other select twin →
      left.Alongside (shop.Twins other) (shop.TwinSources other) right →
      BuildsTwins shop other (select.apply left) (twin.apply right)

/-- What two programs can make that do the same, but for the databases of their statements. -/
inductive Alongside : Workshop → Workshop → Prop where
  | empty : Alongside ⟨[], []⟩ ⟨[], []⟩
  | source {shop other : Workshop} {source twin : Source} :
      Alongside shop other → source.Alongside (shop.Twins other) twin →
      (∀ earlier ∈ shop.sources, earlier.alias.same source.alias = false) →
      Alongside ⟨source :: shop.sources, shop.selects⟩ ⟨twin :: other.sources, other.selects⟩
  | select {shop other : Workshop} {select twin : Select} :
      Alongside shop other → shop.BuildsTwins other select twin →
      Alongside ⟨shop.sources, select :: shop.selects⟩ ⟨other.sources, twin :: other.selects⟩

/-- The invariant of two programs: their sources are the same, and so are their statements,
but for the databases. -/
structure InStep (shop other : Workshop) : Prop where
  sources : ∀ source twin, shop.TwinSources other source twin → source = twin
  selects : ∀ select twin, shop.Twins other select twin →
    ∃ database, twin = select.withDatabase database

theorem InStep.results (inStep : shop.InStep other) (select twin : Select)
    (twins : shop.Twins other select twin) : select.result = twin.result := by
  obtain ⟨_, rfl⟩ := inStep.selects select twin twins
  rfl

theorem InStep.builds (inStep : shop.InStep other) (builds : shop.BuildsTwins other select twin) :
    ∃ database, twin = select.withDatabase database := by
  cases builds with
  | outermost _ otherDatabase twins =>
      rw [inStep.sources _ _ twins]
      exact ⟨otherDatabase, rfl⟩
  | @nested scope otherScope _ _ levels twins =>
      rw [inStep.sources _ _ twins]
      refine ⟨otherScope.database, ?_⟩
      obtain ⟨nearest, enclosing⟩ := List.cons.inj levels
      simp only [Scope.select, Scope.nested, nearest, enclosing]
      rfl
  | @step earlier _ left right twins steps =>
      obtain ⟨database, rfl⟩ := inStep.selects _ _ twins
      refine ⟨database, ?_⟩
      rw [Select.apply_withDatabase, Select.apply_alongside inStep.selects inStep.sources steps]

theorem Alongside.inStep (alongside : shop.Alongside other) : shop.InStep other := by
  induction alongside with
  | empty => constructor <;> exact fun _ _ known => absurd known List.not_mem_nil
  | source _ made _ ih =>
      constructor
      case sources =>
        intro source twin known
        rcases List.mem_cons.mp known with new | old
        · cases new
          exact made.eq ih.results
        · exact ih.sources source twin old
      case selects => exact ih.selects
  | select _ builds ih =>
      constructor
      case sources => exact ih.sources
      case selects =>
        intro select twin known
        rcases List.mem_cons.mp known with new | old
        · cases new
          exact ih.builds builds
        · exact ih.selects select twin old

/-- Each of two such programs is a program. -/
theorem Alongside.reachable (alongside : shop.Alongside other) : shop.Reachable := by
  induction alongside with
  | empty => exact .empty
  | source _ made new ih => exact .source ih (made.sourced fun _ _ => Twins.mem) new
  | select _ builds ih =>
      apply Reachable.select ih
      cases builds with
      | outermost _ _ twins => exact .outermost _ twins.mem
      | nested _ twins => exact .nested _ twins.mem
      | step twins steps =>
          apply Builds.step twins.mem
          · exact steps.sourced (fun _ _ => Twins.mem)
              fun _ _ known => ih.sound.behind _ known.mem
          · rintro kind source rfl
            cases steps with
            | join _ known => exact known.mem

/-- Whatever one of two such programs has made, the other has. -/
structure Covers (shop other : Workshop) : Prop where
  sources : ∀ source ∈ shop.sources, shop.TwinSources other source source
  selects : ∀ select ∈ shop.selects, ∃ twin, shop.Twins other select twin

theorem Alongside.covers (alongside : shop.Alongside other) : shop.Covers other := by
  induction alongside with
  | empty => constructor <;> exact fun _ known => absurd known List.not_mem_nil
  | source earlier made _ ih =>
      have same := made.eq earlier.inStep.results
      constructor
      case sources =>
        intro source member
        rcases List.mem_cons.mp member with rfl | member
        · rw [← same]
          exact List.mem_cons_self
        · exact List.mem_cons_of_mem _ (ih.sources source member)
      case selects => exact ih.selects
  | @select _ _ _ twin _ _ ih =>
      constructor
      case sources => exact ih.sources
      case selects =>
        intro select member
        rcases List.mem_cons.mp member with rfl | member
        · exact ⟨twin, List.mem_cons_self⟩
        · obtain ⟨earlier, twins⟩ := ih.selects select member
          exact ⟨earlier, List.mem_cons_of_mem _ twins⟩

/-- Whatever a program makes, another one makes alongside, for any databases: `recast` gives
the new database of a statement, by the source that it starts at and its own database. -/
theorem Reachable.exists_alongside (reachable : shop.Reachable)
    (recast : Source → Database → Database) :
    ∃ other, shop.Alongside other ∧ ∀ select twin, shop.Twins other select twin →
      twin.scope.database = recast select.query.source select.scope.database := by
  induction reachable with
  | empty => exact ⟨_, .empty, fun _ _ known => absurd known List.not_mem_nil⟩
  | source _ sourced new ih =>
      obtain ⟨other, alongside, recasts⟩ := ih
      refine ⟨_, alongside.source (Source.alongside_self sourced ?_) new, recasts⟩
      intro select member
      obtain ⟨twin, twins⟩ := alongside.covers.selects select member
      exact ⟨twin, twins, (alongside.inStep.results _ _ twins).symm⟩
  | @select shop select _ builds ih =>
      obtain ⟨other, alongside, recasts⟩ := ih
      have exists_twin : ∃ twin, shop.BuildsTwins other select twin ∧
          twin.scope.database = recast select.query.source select.scope.database := by
        cases builds with
        | @outermost database source member =>
            have twins := alongside.covers.sources source member
            exact ⟨_, .outermost database (recast source database) twins, rfl⟩
        | @nested scope source member =>
            have twins := alongside.covers.sources source member
            have started : shop.BuildsTwins other (scope.select source)
                ({ scope with database := recast source scope.database }.select source) :=
              .nested rfl twins
            exact ⟨_, started, rfl⟩
        | @step earlier step member sourced joined =>
            obtain ⟨twin, twins⟩ := alongside.covers.selects earlier member
            obtain ⟨right, steps⟩ := Step.exists_alongside sourced alongside.covers.selects
              fun kind source join => alongside.covers.sources source (joined kind source join)
            refine ⟨_, .step twins steps, ?_⟩
            rw [Select.database_apply, Select.database_apply, Select.source_apply]
            exact recasts earlier twin twins
      obtain ⟨twin, builds, recast⟩ := exists_twin
      refine ⟨_, alongside.select builds, ?_⟩
      intro earlier other known
      rcases List.mem_cons.mp known with new | old
      · cases new
        exact recast
      · exact recasts earlier other old

end Workshop

/-! ## One database for all that is rendered -/

section Rendering

variable {database : Database} {query nested : Query} {prepared : Prepared}

theorem Expr.statement_of_query? {clauses : WindowClauses} {expr : Expr}
    (holds : expr.query? = some nested) : .statement none nested ∈ expr.mentions clauses := by
  cases expr with
  | inQuery _ _ _ | «exists» _ _ | subquery _ =>
      cases holds
      simp [mentions]
  | _ => cases holds

namespace Query

/-- What stands in its place within another query is mentioned there. -/
theorem Renders.statement {clauses : WindowClauses} (renders : query.Renders false clauses nested) :
    nested = query ∨ ∃ operator, .statement operator nested ∈ query.mentions clauses := by
  cases renders with
  | self => exact .inl rfl
  | inExpr outer known contains holds =>
      refine .inr ⟨none, outer.mentions (mentions_of_mem_exprs known ?_)⟩
      exact Expr.mentions_of_contains contains (Expr.statement_of_query? holds)
  | @behind _ _ source outer known body =>
      refine .inr ⟨none, outer.mentions (mentions_of_mem_sources known ?_)⟩
      cases source with
      | mk _ relation =>
          cases relation with
          | derived _ =>
              cases body
              exact List.mem_cons_self
          | table | temporary | common _ => cases body
  | @operand _ operand outer known =>
      refine .inr ⟨some operand.operator, outer.mentions ?_⟩
      rw [mentions_eq, operandMentions_eq]
      simp only [List.mem_append, List.mem_flatMap]
      exact .inl (.inr ⟨operand, known, List.mem_cons_self⟩)

/-- The pieces of a query for a database, as it stands without the WITH clause. -/
def body (database : Database) (query : Query) : List Piece :=
  Lexeme.allPieces database.dialect (query.lexemes database)

theorem Renders.body_infix (renders : query.Renders false database.dialect.windowClauses nested)
    (carries : Lexeme.Carries database (query.lexemes database)
      (query.mentions database.dialect.windowClauses)) :
    nested.body database <:+: query.body database := by
  rcases renders.statement with rfl | ⟨operator, mentioned⟩
  · exact List.infix_rfl
  · obtain ⟨before, after, pieces⟩ := carries.statements operator nested mentioned
    refine ⟨before ++ [.text (SetOperator.opening operator)], after, ?_⟩
    rw [body, body, pieces]
    simp

end Query

theorem Piece.definition_infix_declarations {tables : List CommonTable} {table : CommonTable}
    (member : table ∈ tables) : table.definition <:+: declarations tables := by
  induction tables with
  | nil => cases member
  | cons first rest ih =>
      rcases List.mem_cons.mp member with rfl | member
      · have own : table.definition <:+ declaration table :=
          ⟨[.text table.alias.displayName, .text " as "], rfl⟩
        cases rest with
        | nil => exact own.isInfix
        | cons _ _ => exact own.isInfix.trans (List.prefix_append _ _).isInfix
      · cases rest with
        | nil => cases member
        | cons second others =>
            have behind : declarations (second :: others) <:+
                declaration first ++ .text ", " :: declarations (second :: others) := by
              rw [List.append_cons]
              exact List.suffix_append _ _
            exact (ih member).trans behind.isInfix

/-- The pieces of a whole statement hold those of its query, and of each declared table. -/
theorem Piece.infix_hoisted (tables : List CommonTable) (body : List Piece) :
    declarations tables <:+: hoisted tables body ∧ body <:+: hoisted tables body := by
  cases tables with
  | nil => exact ⟨List.nil_infix, List.infix_rfl⟩
  | cons table rest =>
      have declared : declarations (table :: rest) <+: declarations (table :: rest) ++
          .text " " :: body := List.prefix_append _ _
      have behind : body <:+ declarations (table :: rest) ++ .text " " :: body := by
        rw [List.append_cons]
        exact List.suffix_append _ _
      exact ⟨List.infix_cons declared.isInfix, List.infix_cons behind.isInfix⟩

namespace Query

/-- A prepared statement is spelled for one database: whatever is rendered for it, at any
depth, stands in its text as it is written for that database. -/
structure SpelledFor (database : Database) (query : Query) (prepared : Prepared) : Prop where
  text : prepared.text = String.join (Piece.spell database.dialect 0 (query.pieces database))
  arguments : prepared.arguments = Piece.arguments (query.pieces database)
  rendered : ∀ nested, query.Renders true database.dialect.windowClauses nested →
    nested.body database <:+: query.pieces database

theorem Prepares.spelledFor (prepares : query.Prepares database prepared)
    (coherent : query.Coherent database.dialect.windowClauses) :
    query.SpelledFor database prepared := by
  constructor
  case text => exact prepares.text
  case arguments => exact prepares.arguments
  case rendered =>
    intro nested renders
    rcases renders.placed with inPlace | ⟨common, reaches, inPlace⟩
    · exact (inPlace.body_infix prepares.carries).trans (Piece.infix_hoisted _ _).2
    · have declared : common ∈ query.hoisted database.dialect.windowClauses := by
        rw [(hoisted_declares coherent).mem_iff, Mention.leads_mentions_iff]
        exact .inr reaches
      have enclosed : common.query.body database <:+: (common.table database).definition :=
        ⟨[.text "("], [.text ")"], rfl⟩
      have member : common.table database ∈
          (query.hoisted database.dialect.windowClauses).map (CommonQuery.table database) :=
        List.mem_map_of_mem declared
      have definition := Piece.definition_infix_declarations member
      have written := inPlace.body_infix (prepares.tables common declared).carries
      exact (written.trans enclosed).trans (definition.trans (Piece.infix_hoisted _ _).1)

end Query

end Rendering

namespace Workshop

variable {shop other : Workshop} {select twin : Select}

/-- A statement depends on its own database alone, and not on those of the statements that
its twin was made from. -/
structure OwnDatabaseOnly (select twin : Select) : Prop where
  /-- Both have the same text and the same arguments, or else the same error. -/
  prepare : twin.prepare = select.prepare
  text : twin.text = select.text
  arguments : twin.arguments = select.arguments
  rowType : twin.rowType = select.rowType
  /-- Every nested statement is spelled for that database. -/
  spelled : ∀ prepared, select.prepare = .ok prepared →
    select.query.SpelledFor select.scope.database prepared

/-- Two programs that differ in databases alone make the same of two statements that have one
database, whatever those of the other statements are. -/
theorem outermost_alone (alongside : shop.Alongside other) (twins : shop.Twins other select twin)
    (same : twin.scope.database = select.scope.database) : OwnDatabaseOnly select twin := by
  obtain ⟨database, rfl⟩ := alongside.inStep.selects _ _ twins
  have unchanged : select.withDatabase database = select := by
    have own : database = select.scope.database := same
    rw [Select.withDatabase, own]
  rw [unchanged]
  refine ⟨rfl, rfl, rfl, rfl, fun prepared built => ?_⟩
  have coherent := alongside.reachable.sound.coherent twins.mem
    select.scope.database.dialect.windowClauses
  exact (Select.prepares_of_prepare built).spelledFor coherent

end Workshop

/-! ## A sub-query for another database -/

namespace Sample

/-- The first two of the staff, from some database. -/
def firstTwo (other : Database) : Select :=
  (other.select entry).apply (.fetchFirst 2)

/-- All of the staff, if there are two. -/
def manned (other : Database) : Select :=
  (database.select entry).apply (.filter (.exists false (firstTwo other)))

def mannedShop (other : Database) : Workshop where
  sources := [entry]
  selects := [manned other, database.select entry, firstTwo other, other.select entry]

theorem mannedShop_alongside (first second : Database) :
    (mannedShop first).Alongside (mannedShop second) := by
  have sources : Workshop.Alongside ⟨[entry], []⟩ ⟨[entry], []⟩ := by
    apply Workshop.Alongside.source .empty (.table _)
    intro earlier member
    cases member
  have started := sources.select (.outermost first second List.mem_cons_self)
  have limited := started.select (.step List.mem_cons_self (.fetchFirst 2))
  have outer := limited.select (.outermost database database List.mem_cons_self)
  refine outer.select (.step List.mem_cons_self (.filter (.exists false ?_)))
  exact List.mem_cons_of_mem _ List.mem_cons_self

theorem manned_outermost :
    (mannedShop ⟨.postgres, none⟩).Alongside (mannedShop ⟨.sqlserver, some "dbo"⟩) ∧
      (mannedShop ⟨.postgres, none⟩).Twins (mannedShop ⟨.sqlserver, some "dbo"⟩)
        (manned ⟨.postgres, none⟩) (manned ⟨.sqlserver, some "dbo"⟩) ∧
      (manned ⟨.sqlserver, some "dbo"⟩).scope.database =
        (manned ⟨.postgres, none⟩).scope.database ∧
      Workshop.OwnDatabaseOnly (manned ⟨.postgres, none⟩) (manned ⟨.sqlserver, some "dbo"⟩) ∧
      (manned ⟨.sqlserver, some "dbo"⟩).text =
        .ok ("select e.* from EMPLOYEE as e where exists " ++
          "(select e.* from EMPLOYEE as e limit 2)") ∧
      (firstTwo ⟨.sqlserver, some "dbo"⟩).text =
        .ok ("select e.* from dbo.EMPLOYEE as e order by (select null) " ++
          "offset 0 rows fetch next 2 rows only") := by
  have alongside := mannedShop_alongside ⟨.postgres, none⟩ ⟨.sqlserver, some "dbo"⟩
  have twins : (mannedShop ⟨.postgres, none⟩).Twins (mannedShop ⟨.sqlserver, some "dbo"⟩)
      (manned ⟨.postgres, none⟩) (manned ⟨.sqlserver, some "dbo"⟩) := List.mem_cons_self
  have same : (manned ⟨.sqlserver, some "dbo"⟩).scope.database =
      (manned ⟨.postgres, none⟩).scope.database := by rfl
  exact ⟨alongside, twins, same, Workshop.outermost_alone alongside twins same, by rfl, by rfl⟩

end Sample

end SqlSelect
