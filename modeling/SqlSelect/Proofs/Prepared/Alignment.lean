import SqlSelect.Select.Step
import SqlSelect.Proofs.Prepared.Faithful

/-!
# Arguments and placeholders

A prepared statement is the text of its pieces, the WITH clause ahead of the query
itself.  Placeholders are numbered from one over the whole text, and the arguments
are those that a walk over the query trees collects: first those of the common
tables as they are declared, then those of the query.
-/

namespace SqlSelect

namespace Piece

/-- The text of a piece behind `written` arguments. -/
def spelled (dialect : Dialect) (written : Nat) : Piece → String
  | .text fixed => fixed
  | .argument _ => dialect.placeholder (written + 1)
  | .fault _ => ""

/-- Where every part can be written, the placeholder of an argument has the number of
arguments ahead of it, and one more. -/
theorem spell_eq_mapIdx (dialect : Dialect) (written : Nat) (pieces : List Piece)
    (writable : ∀ error, .fault error ∉ pieces) :
    spell dialect written pieces =
      pieces.mapIdx fun index piece =>
        piece.spelled dialect (written + (arguments (pieces.take index)).length) := by
  induction pieces generalizing written with
  | nil => rfl
  | cons piece rest ih =>
      have restWritable : ∀ error, .fault error ∉ rest := by
        intro error member
        exact writable error (List.mem_cons_of_mem piece member)
      rw [List.mapIdx_cons]
      cases piece with
      | text fixed =>
          rw [spell, ih written restWritable]
          rfl
      | argument value =>
          rw [spell, ih (written + 1) restWritable]
          simp only [List.take_succ_cons, arguments, List.length_cons, Nat.add_assoc,
            Nat.add_comm 1]
          rfl
      | fault error => exact (writable error List.mem_cons_self).elim

@[simp] theorem arguments_declarations (tables : List CommonTable) :
    arguments (declarations tables) = tables.flatMap fun table => arguments table.definition := by
  induction tables with
  | nil => rfl
  | cons table rest ih =>
      cases rest with
      | nil => simp [declarations, declaration, arguments]
      | cons second others =>
          simp only [declarations, declaration, arguments_append, arguments, ih,
            List.cons_append, List.flatMap_cons]

@[simp] theorem arguments_hoisted (tables : List CommonTable) (body : List Piece) :
    arguments (hoisted tables body) =
      (tables.flatMap fun table => arguments table.definition) ++ arguments body := by
  cases tables with
  | nil => rfl
  | cons table rest => simp [hoisted, arguments]

theorem check_declarations {tables : List CommonTable}
    (writable : ∀ table ∈ tables, check table.definition = .ok ()) :
    check (declarations tables) = .ok () := by
  induction tables with
  | nil => rfl
  | cons table rest ih =>
      have head := writable table List.mem_cons_self
      have tail := ih fun other member => writable other (List.mem_cons_of_mem table member)
      cases rest with
      | nil => exact head
      | cons second others => exact (check_append _ _).mpr ⟨head, tail⟩

theorem check_hoisted {tables : List CommonTable} {body : List Piece}
    (tablesWritable : ∀ table ∈ tables, check table.definition = .ok ())
    (bodyWritable : check body = .ok ()) : check (hoisted tables body) = .ok () := by
  cases tables with
  | nil => exact bodyWritable
  | cons table rest =>
      exact (check_append _ _).mpr ⟨check_declarations tablesWritable, bodyWritable⟩

end Piece

/-- The pieces of a whole statement: the declarations of the common tables it needs,
then the query itself. -/
def Query.pieces (database : Database) (query : Query) : List Piece :=
  Piece.hoisted
    ((query.hoisted database.dialect.windowClauses).map (CommonQuery.table database))
    (Lexeme.allPieces database.dialect (query.lexemes database))

/-- What it takes to prepare a query: it can be written and carries what it mentions,
so do the queries of the common tables, and the statement is spelled from its pieces. -/
structure Query.Prepares (database : Database) (query : Query) (prepared : Prepared) :
    Prop where
  writable : Lexeme.Writable database.dialect (query.lexemes database)
  carries : Lexeme.Carries database (query.lexemes database)
    (query.mentions database.dialect.windowClauses)
  tables : ∀ common ∈ query.hoisted database.dialect.windowClauses, common.Written database
  text : prepared.text =
    String.join (Piece.spell database.dialect 0 (query.pieces database))
  arguments : prepared.arguments = Piece.arguments (query.pieces database)

theorem Query.prepares_of_prepare {database : Database} {query : Query} {prepared : Prepared}
    (built : query.prepare database = .ok prepared) : query.Prepares database prepared := by
  simp only [Query.prepare, except_bind_ok, except_pure_ok] at built
  rcases built with ⟨_, checked, tables, declared, rfl⟩
  have agrees := query.faithful database checked
  rcases agrees.declares [] tables (by simp) declared with ⟨rfl, written⟩
  exact ⟨checked, agrees.toCarries, written, rfl, rfl⟩

namespace Query.Prepares

variable {database : Database} {query : Query} {prepared : Prepared}

theorem check_pieces (prepares : query.Prepares database prepared) :
    Piece.check (query.pieces database) = .ok () := by
  apply Piece.check_hoisted
  · intro table member
    obtain ⟨common, known, rfl⟩ := List.mem_map.mp member
    exact (Lexeme.check_query _ _).mpr (prepares.tables common known).writable
  · exact prepares.writable

/-- The arguments are those collected over the trees of the common tables, as they
are declared, and then over the tree of the query. -/
theorem arguments_eq_collected (prepares : query.Prepares database prepared) :
    prepared.arguments =
      ((query.hoisted database.dialect.windowClauses).flatMap fun common =>
        common.query.collected database.dialect.windowClauses) ++
      query.collected database.dialect.windowClauses := by
  rw [prepares.arguments, Query.pieces, Piece.arguments_hoisted, prepares.carries.arguments,
    List.flatMap_map]
  have definitions : ∀ common ∈ query.hoisted database.dialect.windowClauses,
      Piece.arguments (common.table database).definition =
        common.query.collected database.dialect.windowClauses := by
    intro common member
    have written := prepares.tables common member
    simp [CommonQuery.table, Lexeme.pieces, Piece.arguments, written.carries.arguments,
      Query.collected]
  rw [List.flatMap_def, List.map_congr_left definitions, ← List.flatMap_def]
  rfl

end Query.Prepares

/-- The text of a prepared statement and its arguments are aligned. -/
structure Query.Aligned (database : Database) (query : Query) (prepared : Prepared) :
    Prop where
  /-- Every piece is fixed text or the place of an argument. -/
  complete : ∀ error, .fault error ∉ query.pieces database
  /-- The text is that of the pieces, and the place of an argument holds the placeholder
  of its number, counted from one over the whole text. -/
  text : prepared.text = String.join ((query.pieces database).mapIdx fun index piece =>
    piece.spelled database.dialect
      (Piece.arguments ((query.pieces database).take index)).length)
  /-- The arguments stand in the order of their places. -/
  places : prepared.arguments = Piece.arguments (query.pieces database)
  /-- They are those of the common tables, as they are declared, and then those of the
  query, each collected over its tree. -/
  collected : prepared.arguments =
    ((query.hoisted database.dialect.windowClauses).flatMap fun common =>
      common.query.collected database.dialect.windowClauses) ++
    query.collected database.dialect.windowClauses
  /-- A database with the same window clauses takes the same arguments. -/
  portable : ∀ (other : Database) (otherPrepared : Prepared),
    other.dialect.windowClauses = database.dialect.windowClauses →
    query.prepare other = .ok otherPrepared → otherPrepared.arguments = prepared.arguments

theorem Select.prepares_of_prepare {select : Select} {prepared : Prepared}
    (built : select.prepare = .ok prepared) :
    select.query.Prepares select.scope.database prepared := by
  simp only [Select.prepare, except_bind_ok] at built
  rcases built with ⟨query, finished, built⟩
  rcases Select.result_eq_ok finished with ⟨_, rfl⟩
  exact Query.prepares_of_prepare built

/-- In every statement that can be prepared, the placeholders and the arguments are
aligned, across common tables and nested statements. -/
theorem Select.prepare_aligned {select : Select} {prepared : Prepared}
    (built : select.prepare = .ok prepared) :
    select.query.Aligned select.scope.database prepared := by
  have prepares := Select.prepares_of_prepare built
  have complete := Piece.not_fault_of_check prepares.check_pieces
  refine ⟨complete, ?_, prepares.arguments, prepares.arguments_eq_collected, ?_⟩
  · rw [prepares.text, Piece.spell_eq_mapIdx _ _ _ complete]
    simp only [Nat.zero_add]
  · intro other otherPrepared sameClauses otherBuilt
    have otherPrepares := Query.prepares_of_prepare otherBuilt
    rw [otherPrepares.arguments_eq_collected, prepares.arguments_eq_collected, sameClauses]

/-! ## A statement with a common table -/

namespace Sample

def number : Column := ⟨"id", "ID", .bigInt, false, false, true⟩

def staff : Table := ⟨"employee", "EMPLOYEE", none, [number]⟩

def database : Database := ⟨.postgres, none⟩

/-- The numbers above five, under the name of a common table. -/
def recentSelect : Select :=
  (database.select (.ofTable ⟨0, some "e", staff⟩)).run
    [.filter (.binary .greater (.column staff number .any) (.value (.bigInt 5)))]

def recent : CommonQuery := ⟨⟨1, some "r", staff⟩, recentSelect.query⟩

/-- Those of them that are below nine. -/
def select : Select :=
  (database.select ⟨recent.alias, .common recent.query⟩).run
    [.filter (.binary .less (.column staff number .any) (.value (.bigInt 9)))]

def prepared : Prepared where
  text := "with r as (select e.* from EMPLOYEE as e where e.ID > $1) " ++
    "select r.* from r where r.ID < $2"
  arguments := [.integer 5, .integer 9]

theorem select_aligned :
    select.prepare = .ok prepared ∧ select.query.Aligned select.scope.database prepared := by
  have built : select.prepare = .ok prepared := by rfl
  exact ⟨built, Select.prepare_aligned built⟩

end Sample

end SqlSelect
