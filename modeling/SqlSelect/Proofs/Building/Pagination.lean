import SqlSelect.Proofs.Building.Union
import SqlSelect.Proofs.Prepared.Outermost
import SqlSelect.Proofs.Spelling.Page

/-!
# Pages of combined and nested queries

Every query of a statement, at whatever depth, that is to skip or to limit its rows ends in one
suffix that says so.  The suffix stands behind the order of the query and ahead of its locks.
Where an offset is not allowed without an order, the query has just one, directly ahead of the
offset: its own or else a constant one.
-/

namespace SqlSelect

namespace Segment

/-- The segment skips or limits rows. -/
def isPagination : Segment → Bool
  | .suffix (.pagination _ _ _) => true
  | .core _ | .operator _ | .suffix (.order _) | .suffix (.locking _ _) => false

/-- The segment writes an ORDER BY for the rows of its query. -/
def sorts (dialect : Dialect) : Segment → Bool
  | .suffix (.order _) => true
  | .suffix (.pagination fetch offset ordered) =>
    (dialect.readPage? (dialect.pagination fetch offset ordered)).any Page.reorders
  | .core _ | .operator _ | .suffix (.locking _ _) => false

theorem sorts_pagination {dialect : Dialect} {fetch offset : Option Nat} {ordered : Bool}
    {page : Page} (paginates : dialect.Paginates fetch offset ordered page) :
    sorts dialect (.suffix (.pagination fetch offset ordered)) = page.reorders := by
  rw [sorts, paginates.reads]
  rfl

end Segment

namespace Query

variable {database : Database} {query : Query}

/-- The query is to skip or to limit its rows. -/
def isLimited (query : Query) : Bool :=
  query.fetchFirst.isSome || query.offset.isSome

/-- The suffix of a limited query. -/
def paginationSegment (query : Query) : Segment :=
  .suffix (.pagination query.fetchFirst query.offset (!query.orderBy.isEmpty))

/-- A query has the page that it was asked for. -/
structure PagesRead (database : Database) (query : Query) : Prop where
  /-- The text of the query is that of its segments. -/
  written : query.lexemes database = query.segments.flatMap (Segment.lexemes database)
  /-- Of these one is a pagination if it is limited, and none is if it is not. -/
  suffixes : query.segments.filter Segment.isPagination =
    if query.isLimited then [query.paginationSegment] else []
  /-- The pagination is read as the page that was asked for. -/
  reads : ∃ page, database.dialect.Paginates query.fetchFirst query.offset
    (!query.orderBy.isEmpty) page
  /-- Where an offset needs an order, there is one alone, and the offset directly behind it. -/
  sorted : database.dialect = .sqlserver → query.isLimited = true →
    query.segments.countP (Segment.sorts database.dialect) = 1 ∧
    ∃ ahead behind page, query.segments = ahead ++ query.paginationSegment :: behind ∧
      database.dialect.Paginates query.fetchFirst query.offset (!query.orderBy.isEmpty) page ∧
      page.offset.isSome ∧
      (page.reorders = true ∨
        query.orderBy ≠ [] ∧ ahead.getLast? = some (.suffix (.order query.orderBy)))

/-- The query and those combined with it, without suffixes. -/
def united (query : Query) : List Segment :=
  .core query.core ::
    query.operands.flatMap fun operand => [.operator operand.operator, .core operand.query]

theorem mem_united {segment : Segment} (member : segment ∈ query.united) :
    (∃ core, segment = .core core) ∨ ∃ operator, segment = .operator operator := by
  rcases List.mem_cons.mp member with rfl | member
  · exact .inl ⟨_, rfl⟩
  · obtain ⟨operand, _, member⟩ := List.mem_flatMap.mp member
    rcases List.mem_pair.mp member with rfl | rfl
    · exact .inr ⟨_, rfl⟩
    · exact .inl ⟨_, rfl⟩

/-- The order of a query, if it has one. -/
def orderSegments (query : Query) : List Segment :=
  if query.orderBy.isEmpty then [] else [.suffix (.order query.orderBy)]

/-- The locks of a query, if it asks for any. -/
def lockSegments (query : Query) : List Segment :=
  if query.isolation.isSome || query.lock.isSome then
    [.suffix (.locking query.isolation query.lock)] else []

/-- Behind what is united stand an order, a pagination and locks, as far as they are there. -/
theorem EndsWhole.segments_eq (whole : query.EndsWhole) :
    query.segments = query.united ++ (query.orderSegments ++
      (if query.isLimited then [query.paginationSegment] else []) ++ query.lockSegments) := by
  rw [whole.behind, Tail.suffixes]
  simp only [List.map_append, apply_ite (List.map Segment.suffix)]
  rfl

/-- Neither the united queries nor their locks limit or sort anything. -/
theorem plain_of_mem (dialect : Dialect) {segment : Segment}
    (member : segment ∈ query.united ∨ segment ∈ query.lockSegments) :
    segment.isPagination = false ∧ segment.sorts dialect = false := by
  rcases member with member | member
  · rcases mem_united member with ⟨core, rfl⟩ | ⟨operator, rfl⟩ <;> exact ⟨rfl, rfl⟩
  · obtain ⟨_, same⟩ := List.mem_ite_nil_right.mp member
    rw [List.mem_singleton.mp same]
    exact ⟨rfl, rfl⟩

theorem EndsWhole.filter_isPagination (whole : query.EndsWhole) :
    query.segments.filter Segment.isPagination =
      if query.isLimited then [query.paginationSegment] else [] := by
  have nothing {segments : List Segment}
      (plain : ∀ segment ∈ segments, segment.isPagination = false) :
      segments.filter Segment.isPagination = [] := by
    simpa [List.filter_eq_nil_iff] using plain
  have order : query.orderSegments.filter Segment.isPagination = [] := by
    apply nothing
    intro segment member
    obtain ⟨_, same⟩ := List.mem_ite_nil_left.mp member
    rw [List.mem_singleton.mp same]
    rfl
  rw [whole.segments_eq, List.filter_append, List.filter_append, List.filter_append, order,
    nothing fun segment member => (plain_of_mem .ansi (.inl member)).1,
    nothing fun segment member => (plain_of_mem .ansi (.inr member)).1]
  cases query.isLimited <;> rfl

theorem countP_of_plain (query : Query) (dialect : Dialect) {segments : List Segment}
    (plain : ∀ segment ∈ segments, segment ∈ query.united ∨ segment ∈ query.lockSegments) :
    segments.countP (Segment.sorts dialect) = 0 := by
  rw [List.countP_eq_zero]
  intro segment member sorts
  rw [(plain_of_mem dialect (plain segment member)).2] at sorts
  cases sorts

/-- Either the query is ordered, or a constant order is written; never both. -/
theorem EndsWhole.countP_sorts (whole : query.EndsWhole) {dialect : Dialect} {page : Page}
    (limited : query.isLimited = true)
    (paginates : dialect.Paginates query.fetchFirst query.offset (!query.orderBy.isEmpty) page)
    (constant : page.reorders = query.orderBy.isEmpty) :
    query.segments.countP (Segment.sorts dialect) = 1 := by
  have united := query.countP_of_plain dialect fun segment member => .inl member
  have locks := query.countP_of_plain dialect fun segment member => .inr member
  have pagination : query.paginationSegment.sorts dialect = query.orderBy.isEmpty :=
    (Segment.sorts_pagination paginates).trans constant
  rw [whole.segments_eq, if_pos limited]
  simp only [List.countP_append, united, locks, List.countP_singleton, pagination, orderSegments]
  cases query.orderBy.isEmpty <;> rfl

theorem EndsWhole.pagesRead (whole : query.EndsWhole) (database : Database) :
    query.PagesRead database := by
  obtain ⟨page, paginates⟩ := database.dialect.exists_paginates query.fetchFirst query.offset
    (!query.orderBy.isEmpty)
  constructor
  case written => exact whole.written database
  case suffixes => exact whole.filter_isPagination
  case reads => exact ⟨page, paginates⟩
  case sorted =>
    intro needed limited
    have asked : (query.fetchFirst.isSome || query.offset.isSome) = true := limited
    have constant : page.reorders = query.orderBy.isEmpty := by
      rw [paginates.reorders, needed, asked]
      simp
    refine ⟨whole.countP_sorts limited paginates constant, query.united ++ query.orderSegments,
      query.lockSegments, page, ?_, paginates, paginates.skips needed asked, ?_⟩
    · rw [whole.segments_eq, if_pos limited]
      simp
    · cases empty : query.orderBy.isEmpty with
      | true => exact .inl (constant.trans empty)
      | false =>
          refine .inr ⟨fun none => ?_, ?_⟩
          · rw [none] at empty
            cases empty
          · rw [orderSegments, empty]
            exact List.getLast?_concat

end Query

/-- Every row window denotes what was asked for: that of any numbers in any dialect, and that of
every query of a statement. -/
structure Select.PagesServed (select : Select) : Prop where
  /-- In every dialect the suffix says the page that was asked for, be there an order or not. -/
  suffixes : ∀ (dialect : Dialect) (fetch offset : Option Nat) (ordered : Bool),
    ∃ page, dialect.Paginates fetch offset ordered page
  /-- Nothing is written where nothing is asked for. -/
  absent : ∀ (dialect : Dialect) (ordered : Bool), dialect.pagination none none ordered = ""
  /-- The statement and the queries it holds, at any depth, have their pages. -/
  queries : ∀ query, query = select.query ∨ select.query.Holds query →
    ∀ database, query.PagesRead database
  /-- Those that are rendered are among them, and stand in the text as they are written. -/
  rendered : ∀ prepared, select.prepare = .ok prepared →
    select.query.SpelledFor select.scope.database prepared ∧
    ∀ query, select.query.Renders true select.scope.database.dialect.windowClauses query →
      query = select.query ∨ select.query.Holds query

/-- Whatever statement a program makes, its pages are those that were asked for. -/
theorem Workshop.pages_served {shop : Workshop} (reachable : shop.Reachable) {select : Select}
    (known : select ∈ shop.selects) : select.PagesServed := by
  have sound := reachable.sound
  have built := sound.built select known
  constructor
  case suffixes => exact Dialect.exists_paginates
  case absent => exact Dialect.pagination_none
  case queries =>
    rintro query (rfl | holds) database
    · exact (built.endsWhole sound.built).pagesRead database
    · obtain ⟨inner, innerKnown, _, rfl⟩ := built.origin_of_holds sound.built holds
      exact ((sound.built inner innerKnown).endsWhole sound.built).pagesRead database
  case rendered =>
    intro prepared prepares
    have coherent := sound.coherent known select.scope.database.dialect.windowClauses
    exact ⟨(Select.prepares_of_prepare prepares).spelledFor coherent,
      fun query renders => renders.eq_or_holds⟩

/-! ## Pages within a page -/

namespace Sample

def warehouse : Database := ⟨.sqlserver, some "dbo"⟩

/-- Three of the staff behind the first one by their numbers, if there are any two. -/
def shift : Select :=
  (warehouse.select entry).run
    [.filter (.exists false (firstTwo warehouse)), .orderBy (.column staff number .any) false,
      .offset 1, .fetchFirst 3]

set_option maxRecDepth 2000 in
theorem shift_pages :
    ∃ shop : Workshop, shop.Reachable ∧ shift ∈ shop.selects ∧ shift.PagesServed ∧
      shift.text = .ok ("select e.* from dbo.EMPLOYEE as e where exists (" ++
        "select e.* from dbo.EMPLOYEE as e order by (select null) " ++
        "offset 0 rows fetch next 2 rows only) order by e.ID offset 1 rows " ++
        "fetch next 3 rows only") := by
  have table : Workshop.Reachable ⟨[entry], []⟩ :=
    .source .empty (Source.from_ofTable _) fun _ member => absurd member List.not_mem_nil
  have started : Workshop.Reachable ⟨[entry], [warehouse.select entry]⟩ :=
    .select table (.outermost warehouse List.mem_cons_self)
  have limited := started.takes List.mem_cons_self (.fetchFirst 2) trivial (by simp)
  have manned : Step.From (· ∈ [firstTwo warehouse, warehouse.select entry])
      (.filter (.exists false (firstTwo warehouse))) := by
    intro inner member
    rw [List.mem_singleton.mp member]
    exact List.mem_cons_self
  have filtered := limited.takes (List.mem_cons_of_mem _ List.mem_cons_self) _ manned (by simp)
  have ordered := filtered.takes List.mem_cons_self (.orderBy (.column staff number .any) false)
    (Term.from_of_selects_eq_nil rfl) (by simp)
  have skipped := ordered.takes List.mem_cons_self (.offset 1) trivial (by simp)
  have counted := skipped.takes List.mem_cons_self (.fetchFirst 3) trivial (by simp)
  exact ⟨_, counted, List.mem_cons_self, Workshop.pages_served counted List.mem_cons_self,
    by rfl⟩

end Sample

end SqlSelect
