import SqlSelect.Proofs.Prepared.Alignment
import SqlSelect.Proofs.Prepared.Reach

/-!
# Hoisted common tables

The common tables of a statement are declared once, ahead of the whole statement and
each behind all that its own query reaches.  The invariant is on the list of declared
tables: it grows at its end only, and never by a table whose query reaches one that is
still missing.
-/

namespace SqlSelect

/-- One identity stands for one common table: the query is part of what an alias is. -/
def Query.Coherent (clauses : WindowClauses) (query : Query) : Prop :=
  ∀ left right, query.Reaches clauses left → query.Reaches clauses right →
    left.alias.same right.alias = true → left = right

namespace Mention

variable {clauses : WindowClauses}

/-- Some mentions lead to the common tables that they name, and to those that are
reached from there. -/
def Leads (clauses : WindowClauses) (mentions : List Mention) (common : CommonQuery) : Prop :=
  ∃ first inner, .common first.alias first.query inner ∈ mentions ∧
    (common = first ∨ first.query.Reaches clauses common)

theorem leads_mentions_iff {query : Query} {common : CommonQuery} :
    Leads clauses (query.mentions clauses) common ↔ query.Reaches clauses common := by
  rw [Query.reaches_iff_names_or]
  constructor
  · rintro ⟨first, inner, member, leads⟩
    exact ⟨first, ⟨inner, member⟩, leads⟩
  · rintro ⟨first, ⟨inner, member⟩, leads⟩
    exact ⟨first, inner, member, leads⟩

theorem leads_cons_iff {mention : Mention} {rest : List Mention} {common : CommonQuery} :
    Leads clauses (mention :: rest) common ↔
      Leads clauses [mention] common ∨ Leads clauses rest common := by
  constructor
  · rintro ⟨first, inner, member, leads⟩
    rcases List.mem_cons.mp member with same | member
    · exact .inl ⟨first, inner, List.mem_singleton.mpr same, leads⟩
    · exact .inr ⟨first, inner, member, leads⟩
  · rintro (⟨first, inner, member, leads⟩ | ⟨first, inner, member, leads⟩)
    · rw [List.mem_singleton] at member
      exact ⟨first, inner, List.mem_cons.mpr (.inl member), leads⟩
    · exact ⟨first, inner, List.mem_cons_of_mem mention member, leads⟩

@[simp] theorem not_leads_nil (common : CommonQuery) : ¬ Leads clauses [] common := by
  rintro ⟨_, _, member, _⟩
  cases member

@[simp] theorem not_leads_argument (value : Value) (common : CommonQuery) :
    ¬ Leads clauses [.argument value] common := by
  rintro ⟨_, _, member, _⟩
  cases List.mem_singleton.mp member

@[simp] theorem not_leads_statement (operator : Option SetOperator) (query : Query)
    (common : CommonQuery) : ¬ Leads clauses [.statement operator query] common := by
  rintro ⟨_, _, member, _⟩
  cases List.mem_singleton.mp member

theorem leads_common_iff {handle : Alias} {query : Query} {inner : List Mention}
    {common : CommonQuery} :
    Leads clauses [.common handle query inner] common ↔
      common = ⟨handle, query⟩ ∨ query.Reaches clauses common := by
  constructor
  · rintro ⟨⟨_, _⟩, _, member, leads⟩
    cases List.mem_singleton.mp member
    exact leads
  · intro leads
    exact ⟨⟨handle, query⟩, inner, List.mem_singleton.mpr rfl, leads⟩

end Mention

namespace CommonQuery

variable {clauses : WindowClauses}

/-- Declared common tables: every identity once, and each table behind all that its
query reaches. -/
inductive Ordered (clauses : WindowClauses) : List CommonQuery → Prop where
  | nil : Ordered clauses []
  | snoc {declared : List CommonQuery} {common : CommonQuery} :
      Ordered clauses declared →
      (∀ earlier ∈ declared, earlier.alias.same common.alias = false) →
      (∀ used, common.query.Reaches clauses used → used ∈ declared) →
      Ordered clauses (declared ++ [common])

namespace Ordered

variable {declared : List CommonQuery}

theorem mem_of_reaches (ordered : Ordered clauses declared) {common used : CommonQuery}
    (member : common ∈ declared) (reaches : common.query.Reaches clauses used) :
    used ∈ declared := by
  induction ordered with
  | nil => cases member
  | snoc _ _ behind ih =>
      rcases List.mem_append.mp member with member | member
      · exact List.mem_append_left _ (ih member)
      · cases List.mem_singleton.mp member
        exact List.mem_append_left _ (behind used reaches)

theorem once (ordered : Ordered clauses declared) :
    declared.Pairwise fun earlier later => earlier.alias.same later.alias = false := by
  induction ordered with
  | nil => exact .nil
  | snoc _ fresh _ ih =>
      rw [List.pairwise_append]
      refine ⟨ih, List.pairwise_singleton _ _, ?_⟩
      intro earlier member later last
      cases List.mem_singleton.mp last
      exact fresh earlier member

theorem behind (ordered : Ordered clauses declared) {before after : List CommonQuery}
    {common used : CommonQuery} (split : declared = before ++ common :: after)
    (reaches : common.query.Reaches clauses used) : used ∈ before := by
  induction ordered generalizing after with
  | nil => simp at split
  | @snoc earlier last _ _ closed ih =>
      rcases List.eq_nil_or_concat after with rfl | ⟨rest, final, rfl⟩
      · obtain ⟨rfl, same⟩ := List.append_inj' split rfl
        cases same
        exact closed used reaches
      · rw [List.concat_eq_append, ← List.cons_append, ← List.append_assoc] at split
        obtain ⟨rfl, _⟩ := List.append_inj' split rfl
        exact ih rfl

end Ordered

end CommonQuery

/-! ## Declaring in order -/

namespace Mention

open CommonQuery (Ordered)

variable {clauses : WindowClauses} {root : Query}

/-- What declaring some mentions makes of the tables declared so far: they stay in
order, and grow by just those that the mentions lead to. -/
structure Declares (clauses : WindowClauses) (declared : List CommonQuery)
    (mentions : List Mention) (result : List CommonQuery) : Prop where
  ordered : Ordered clauses result
  mem_iff : ∀ common, common ∈ result ↔ common ∈ declared ∨ Leads clauses mentions common

/-- A common table that is declared already brings nothing new. -/
theorem Declares.known {declared : List CommonQuery} {common : CommonQuery}
    {inner : List Mention} (ordered : Ordered clauses declared) (member : common ∈ declared) :
    Declares clauses declared [.common common.alias common.query inner] declared := by
  refine ⟨ordered, ?_⟩
  intro used
  rw [leads_common_iff]
  constructor
  · exact .inl
  · rintro (member | rfl | reaches)
    · assumption
    · assumption
    · exact ordered.mem_of_reaches member reaches

/-- A new common table goes behind all that its own query leads to.  Among those it
cannot stand itself. -/
theorem Declares.fresh (coherent : root.Coherent clauses) {common : CommonQuery}
    (reached : root.Reaches clauses common) {declared result : List CommonQuery}
    (new : ∀ earlier ∈ declared, earlier.alias.same common.alias = false)
    (declares : Declares clauses declared (common.query.mentions clauses) result) :
    Declares clauses declared
      [.common common.alias common.query (common.query.mentions clauses)]
      (result ++ [common]) := by
  have mem_iff (used : CommonQuery) :
      used ∈ result ↔ used ∈ declared ∨ common.query.Reaches clauses used := by
    rw [declares.mem_iff, leads_mentions_iff]
  constructor
  · apply declares.ordered.snoc
    · intro earlier member
      rcases (mem_iff earlier).mp member with old | reaches
      · exact new earlier old
      · rw [← Bool.not_eq_true]
        intro same
        cases coherent earlier common (reached.trans reaches) reached same
        exact Query.not_reaches_self _ reaches
    · intro used reaches
      exact (mem_iff used).mpr (.inr reaches)
  · intro used
    rw [leads_common_iff, List.mem_append, List.mem_singleton, mem_iff]
    constructor
    · rintro ((old | reaches) | same)
      · exact .inl old
      · exact .inr (.inr reaches)
      · exact .inr (.inl same)
    · rintro (old | same | reaches)
      · exact .inl (.inl old)
      · exact .inr same
      · exact .inl (.inr reaches)

mutual

theorem declares (coherent : root.Coherent clauses) (mention : Mention)
    (made : Made clauses mention)
    (leads : ∀ common, Leads clauses [mention] common → root.Reaches clauses common)
    {declared : List CommonQuery} (ordered : Ordered clauses declared)
    (reached : ∀ common ∈ declared, root.Reaches clauses common) :
    Declares clauses declared [mention] (mention.declare declared) := by
  cases mention with
  | argument value => exact ⟨ordered, by simp [declare]⟩
  | statement operator query => exact ⟨ordered, by simp [declare]⟩
  | common handle query inner =>
      have outerReached : root.Reaches clauses ⟨handle, query⟩ :=
        leads _ (leads_common_iff.mpr (.inl rfl))
      rw [declare]
      by_cases known : declared.any (·.alias.same handle) = true
      · rw [if_pos known]
        obtain ⟨earlier, member, same⟩ := List.any_eq_true.mp known
        cases coherent earlier ⟨handle, query⟩ (reached _ member) outerReached same
        exact .known ordered member
      · rw [if_neg known]
        obtain ⟨mentioned, innerMade⟩ := made.inner
        have innerDeclares := declaresAll coherent inner innerMade (by
          intro common innerLeads
          rw [mentioned, leads_mentions_iff] at innerLeads
          exact outerReached.trans innerLeads) ordered reached
        subst mentioned
        have new : ∀ earlier ∈ declared, earlier.alias.same handle = false := by
          simpa using known
        exact .fresh coherent outerReached new innerDeclares

theorem declaresAll (coherent : root.Coherent clauses) (mentions : List Mention)
    (made : AllMade clauses mentions)
    (leads : ∀ common, Leads clauses mentions common → root.Reaches clauses common)
    {declared : List CommonQuery} (ordered : Ordered clauses declared)
    (reached : ∀ common ∈ declared, root.Reaches clauses common) :
    Declares clauses declared mentions (declareAll declared mentions) := by
  cases mentions with
  | nil => exact ⟨ordered, by simp [declareAll]⟩
  | cons mention rest =>
      obtain ⟨headMade, restMade⟩ := (allMade_cons mention rest).mp made
      have head := declares coherent mention headMade
        (fun common lead => leads common (leads_cons_iff.mpr (.inl lead))) ordered reached
      have headReached : ∀ common ∈ mention.declare declared, root.Reaches clauses common := by
        intro common member
        rcases (head.mem_iff common).mp member with old | lead
        · exact reached common old
        · exact leads common (leads_cons_iff.mpr (.inl lead))
      have tail := declaresAll coherent rest restMade
        (fun common lead => leads common (leads_cons_iff.mpr (.inr lead)))
        head.ordered headReached
      rw [declareAll]
      refine ⟨tail.ordered, ?_⟩
      intro common
      rw [tail.mem_iff, head.mem_iff, or_assoc, ← leads_cons_iff]

end

end Mention

theorem Query.hoisted_declares {clauses : WindowClauses} {query : Query}
    (coherent : query.Coherent clauses) :
    Mention.Declares clauses [] (query.mentions clauses) (query.hoisted clauses) :=
  Mention.declaresAll coherent _ (query.allMade clauses)
    (fun _ leads => Mention.leads_mentions_iff.mp leads) .nil (by simp)

/-! ## The WITH clause -/

/-- The words a query begins with. -/
def Query.opening (query : Query) : String :=
  if query.distinct then "select distinct " else "select "

theorem Query.exists_pieces_eq (database : Database) (query : Query) :
    ∃ rest, Lexeme.allPieces database.dialect (query.lexemes database) =
      .text query.opening :: rest := by
  cases query with
  | mk distinct =>
      simp only [lexemes, List.cons_append, List.append_assoc, Lexeme.allPieces_cons]
      exact ⟨_, rfl⟩

/-- The statement stands among the pieces right behind `lead`, and begins with its own
SELECT: no WITH clause is between them. -/
def Query.Plain (database : Database) (pieces : List Piece) (lead : String)
    (nested : Query) : Prop :=
  ∃ before rest after,
    Lexeme.allPieces database.dialect (nested.lexemes database) = .text nested.opening :: rest ∧
    pieces = before ++ .text lead :: .text nested.opening :: rest ++ after

theorem Lexeme.Carries.plain {database : Database} {lexemes : List Lexeme}
    {mentions : List Mention} (carries : Carries database lexemes mentions)
    {operator : Option SetOperator} {nested : Query}
    (member : .statement operator nested ∈ mentions) :
    nested.Plain database (allPieces database.dialect lexemes)
      (SetOperator.opening operator) := by
  obtain ⟨before, after, pieces⟩ := carries.statements operator nested member
  obtain ⟨rest, text⟩ := nested.exists_pieces_eq database
  rw [text] at pieces
  exact ⟨before, rest, after, text, by simpa using pieces⟩

/-- An entry of a WITH clause: the name of the common table, and its query in parentheses. -/
def CommonQuery.declared (database : Database) (common : CommonQuery) : List Piece :=
  .text common.alias.displayName :: .text " as " :: .text "(" ::
    (Lexeme.allPieces database.dialect (common.query.lexemes database) ++ [.text ")"])

/-- A WITH clause, with commas between its entries. -/
def CommonQuery.withClause (database : Database) (tables : List CommonQuery) : List Piece :=
  .text "with " ::
    ([.text ", "] : List Piece).intercalate (tables.map (CommonQuery.declared database))

theorem Piece.declarations_eq_intercalate (tables : List CommonTable) :
    declarations tables = ([.text ", "] : List Piece).intercalate (tables.map declaration) := by
  induction tables with
  | nil => rfl
  | cons table rest ih =>
      cases rest with
      | nil => simp [declarations]
      | cons second others =>
          rw [declarations, ih, List.map_cons, List.map_cons, List.map_cons,
            List.intercalate_cons_cons, List.append_assoc]
          · rfl
          · simp

theorem CommonQuery.declaration_table (database : Database) (common : CommonQuery) :
    Piece.declaration (common.table database) = common.declared database := by
  simp [Piece.declaration, table, declared, Lexeme.pieces]

/-- What stands ahead of a statement with common tables. -/
theorem Piece.hoisted_tables (database : Database) {tables : List CommonQuery}
    (some : tables ≠ []) (body : List Piece) :
    hoisted (tables.map (CommonQuery.table database)) body =
      CommonQuery.withClause database tables ++ .text " " :: body := by
  have entries : declarations (tables.map (CommonQuery.table database)) =
      ([.text ", "] : List Piece).intercalate (tables.map (CommonQuery.declared database)) := by
    rw [declarations_eq_intercalate, List.map_map]
    exact congrArg _ (List.map_congr_left fun common _ => common.declaration_table database)
  cases tables with
  | nil => exact absurd rfl some
  | cons common rest =>
      rw [CommonQuery.withClause, ← entries]
      rfl

/-- The common tables of a query are hoisted to one WITH clause. -/
structure Query.Hoists (database : Database) (query : Query) (prepared : Prepared) :
    Prop where
  /-- Just the common tables that the query reaches are declared. -/
  exact : ∀ common, common ∈ query.hoisted database.dialect.windowClauses ↔
    query.Reaches database.dialect.windowClauses common
  /-- No identity is declared twice. -/
  once : (query.hoisted database.dialect.windowClauses).Pairwise fun earlier later =>
    earlier.alias.same later.alias = false
  /-- A common table is declared behind all that its own query reaches. -/
  behind : ∀ before common after,
    query.hoisted database.dialect.windowClauses = before ++ common :: after →
    ∀ used, common.query.Reaches database.dialect.windowClauses used → used ∈ before
  /-- What a query names is what stands in its text, for the query itself and for that of
  every declared table. -/
  named : ∀ written, (written = query ∨
      ∃ common ∈ query.hoisted database.dialect.windowClauses, written = common.query) →
    Lexeme.allNames (written.lexemes database) =
      Mention.names (written.mentions database.dialect.windowClauses)
  text : prepared.text =
    String.join (Piece.spell database.dialect 0 (query.pieces database))
  /-- Without a common table there is no WITH clause. -/
  bare : query.hoisted database.dialect.windowClauses = [] →
    query.pieces database = Lexeme.allPieces database.dialect (query.lexemes database)
  /-- Otherwise it stands ahead of the whole statement. -/
  ahead : query.hoisted database.dialect.windowClauses ≠ [] →
    query.pieces database =
      CommonQuery.withClause database (query.hoisted database.dialect.windowClauses) ++
        .text " " :: Lexeme.allPieces database.dialect (query.lexemes database)
  /-- The outermost query begins with SELECT, and so does every statement in it. -/
  plain : (∃ rest, Lexeme.allPieces database.dialect (query.lexemes database) =
      .text query.opening :: rest) ∧
    ∀ operator nested,
      .statement operator nested ∈ query.mentions database.dialect.windowClauses →
      nested.Plain database (Lexeme.allPieces database.dialect (query.lexemes database))
        (SetOperator.opening operator)
  /-- So does the query of a declared table, and every statement in that. -/
  definitions : ∀ common ∈ query.hoisted database.dialect.windowClauses,
    common.query.Plain database (common.declared database) "(" ∧
    ∀ operator nested,
      .statement operator nested ∈ common.query.mentions database.dialect.windowClauses →
      nested.Plain database (common.declared database) (SetOperator.opening operator)

theorem CommonQuery.plain_declared (database : Database) (common : CommonQuery) :
    common.query.Plain database (common.declared database) "(" := by
  obtain ⟨rest, text⟩ := common.query.exists_pieces_eq database
  exact ⟨[.text common.alias.displayName, .text " as "], rest, [.text ")"], text,
    by simp [declared, text]⟩

/-- What stands in the query of a common table stands in its entry. -/
theorem Query.Plain.declared {database : Database} {common : CommonQuery} {lead : String}
    {nested : Query}
    (plain : nested.Plain database
      (Lexeme.allPieces database.dialect (common.query.lexemes database)) lead) :
    nested.Plain database (common.declared database) lead := by
  obtain ⟨before, rest, after, text, pieces⟩ := plain
  refine ⟨.text common.alias.displayName :: .text " as " :: .text "(" :: before, rest,
    after ++ [.text ")"], text, ?_⟩
  rw [CommonQuery.declared, pieces]
  simp

/-- In every statement that can be prepared, the common tables are declared in one WITH
clause ahead of the whole statement: those it reaches, once each and in the order of
their use. -/
theorem Select.hoists_of_coherent {select : Select} {prepared : Prepared}
    (coherent : select.query.Coherent select.scope.database.dialect.windowClauses)
    (built : select.prepare = .ok prepared) :
    select.query.Hoists select.scope.database prepared := by
  have prepares := Select.prepares_of_prepare built
  have declares := Query.hoisted_declares coherent
  constructor
  case exact =>
    intro common
    rw [declares.mem_iff, Mention.leads_mentions_iff]
    simp
  case once => exact declares.ordered.once
  case behind =>
    intro before common after split used reaches
    exact declares.ordered.behind split reaches
  case named =>
    rintro written (rfl | ⟨common, member, rfl⟩)
    · exact prepares.carries.names
    · exact (prepares.tables common member).carries.names
  case text => exact prepares.text
  case bare =>
    intro none
    rw [Query.pieces, none]
    rfl
  case ahead => exact fun some => Piece.hoisted_tables _ some _
  case plain =>
    refine ⟨select.query.exists_pieces_eq _, ?_⟩
    intro operator nested member
    exact prepares.carries.plain member
  case definitions =>
    intro common member
    refine ⟨common.plain_declared _, ?_⟩
    intro operator nested inner
    exact ((prepares.tables common member).carries.plain inner).declared

end SqlSelect
