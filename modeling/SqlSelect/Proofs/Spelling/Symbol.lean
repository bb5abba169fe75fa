import Mathlib.Data.List.Chain
import SqlSelect.Proofs.Grammar.Lexer
import SqlSelect.Proofs.Prepared.Alignment

/-!
# The symbols of a whole statement

A statement is laid out as one row of symbols: the WITH clause ahead of the query, and
every query in parentheses from left to right.  The text of a statement is spelled along
that row, so that what may stand side by side in the text is what may stand side by side
in the row.

A literal ends where something else begins: a blank, a comma or a closing parenthesis.  So
does a word that no blank is written behind.  A minus sign is written ahead of what has no sign
of its own, and the name of a function ahead of a parenthesis.
-/

namespace SqlSelect

namespace Lexeme

mutual

/-- A symbol, with the symbols of a query between its parentheses. -/
def flat : Lexeme → List Lexeme
  | .query body => .opening false :: flatten body ++ [.closing false]
  | lexeme => [lexeme]

/-- Some symbols in one row, queries included. -/
def flatten : List Lexeme → List Lexeme
  | [] => []
  | lexeme :: rest => lexeme.flat ++ flatten rest

end

@[simp] theorem flatten_nil : flatten [] = [] := rfl

@[simp] theorem flatten_cons (lexeme : Lexeme) (rest : List Lexeme) :
    flatten (lexeme :: rest) = lexeme.flat ++ flatten rest := rfl

@[simp] theorem flatten_append (left right : List Lexeme) :
    flatten (left ++ right) = flatten left ++ flatten right := by
  induction left with
  | nil => rfl
  | cons lexeme rest ih => simp [ih]

theorem flatten_cons_of_flat {lexeme : Lexeme} (flat : lexeme.flat = [lexeme])
    (rest : List Lexeme) : flatten (lexeme :: rest) = lexeme :: flatten rest := by
  rw [flatten_cons, flat, List.singleton_append]

mutual

theorem allPieces_flat (dialect : Dialect) (lexeme : Lexeme) :
    allPieces dialect lexeme.flat = lexeme.pieces dialect := by
  cases lexeme with
  | query body =>
      simp only [flat, List.cons_append, allPieces_cons, allPieces_append,
        allPieces_flatten dialect body, allPieces_nil, List.append_nil]
      rfl
  | _ => simp only [flat, allPieces_cons, allPieces_nil, List.append_nil]

/-- The row has the text of the symbols it is made from. -/
theorem allPieces_flatten (dialect : Dialect) (lexemes : List Lexeme) :
    allPieces dialect (flatten lexemes) = allPieces dialect lexemes := by
  cases lexemes with
  | nil => rfl
  | cons lexeme rest =>
      rw [flatten_cons, allPieces_append, allPieces_flat dialect lexeme,
        allPieces_flatten dialect rest, allPieces_cons]

end

/-! ## Spelling along the row -/

/-- The number of arguments that some symbols hand over. -/
def places (dialect : Dialect) (lexemes : List Lexeme) : Nat :=
  (Piece.arguments (allPieces dialect lexemes)).length

/-- The text of some symbols behind `written` arguments. -/
def spelled (dialect : Dialect) (written : Nat) (lexemes : List Lexeme) : List Char :=
  (String.join (Piece.spell dialect written (allPieces dialect lexemes))).toList

section Spelling

variable (dialect : Dialect) (written : Nat)

@[simp] theorem spelled_nil : spelled dialect written [] = [] := rfl

theorem spelled_append (left right : List Lexeme) :
    spelled dialect written (left ++ right) =
      spelled dialect written left ++ spelled dialect (written + places dialect left) right := by
  simp only [spelled, allPieces_append, Piece.spell_append, String.join_append,
    String.toList_append, places]

theorem spelled_cons (lexeme : Lexeme) (rest : List Lexeme) :
    spelled dialect written (lexeme :: rest) =
      spelled dialect written [lexeme] ++
        spelled dialect (written + places dialect [lexeme]) rest :=
  spelled_append dialect written [lexeme] rest

/-- A symbol that is fixed text is spelled by it, wherever it stands. -/
theorem spelled_text {lexeme : Lexeme} {text : String}
    (fixed : lexeme.pieces dialect = [.text text]) :
    spelled dialect written [lexeme] = text.toList := by
  simp [spelled, fixed, Piece.spell]

theorem spelled_minus : spelled dialect written [.minus] = ['-'] := by
  rw [spelled_text dialect written rfl]
  rfl

theorem spelled_argument (value : Value) :
    spelled dialect written [.argument value] =
      (dialect.placeholder (written + 1)).toList := by
  simp [spelled, pieces, Piece.spell]

end Spelling

/-! ## What may stand side by side -/

/-- A blank, a comma or a closing parenthesis. -/
def IsGap (char : Char) : Prop :=
  char = ' ' ∨ char = ',' ∨ char = ')'

/-- Nothing follows, or a gap does. -/
def Gapped (rest : List Char) : Prop :=
  ∀ next ∈ rest.head?, IsGap next

/-- The symbol begins with a blank, a comma or a closing parenthesis.  So may a part that
cannot be written. -/
def opensGap : Lexeme → Bool
  | .word text => text.toList.head? == some ' '
  | .operator _ | .between _ | .like _ | .isIn _ | .isNull _ | .closing _ | .comma | .asType _
  | .over | .orderBy true | .descending | .when | .thenResult | .otherwise | .endCase
  | .fault _ => true
  | _ => false

/-- The symbol begins an operand that has no sign of its own.  So may a part that cannot
be written. -/
def opensOperand : Lexeme → Bool
  | .literal value => !value.isNegative
  | .argument _ | .column _ | .opening _ | .function _ | .concat | .cast | .case
  | .fault _ => true
  | _ => false

/-- What a symbol asks for behind it. -/
inductive Demand where
  | nothing
  /-- The end, or a gap. -/
  | gap
  /-- An operand without a sign. -/
  | operand
  /-- An opening parenthesis. -/
  | parenthesis
deriving DecidableEq, Repr

def demand : Lexeme → Demand
  | .literal _ | .isNull _ | .star | .descending | .case | .endCase => .gap
  | .minus => .operand
  | .function _ | .concat | .cast => .parenthesis
  | _ => .nothing

/-- The symbol meets what another one asks for. -/
def meets (lexeme : Lexeme) : Demand → Bool
  | .nothing => true
  | .gap => lexeme.opensGap
  | .operand => lexeme.opensOperand
  | .parenthesis => lexeme matches .opening _

/-- A symbol may stand right behind another one. -/
def Follows (first second : Lexeme) : Prop :=
  second.meets first.demand = true

/-- A row may end with this symbol. -/
def mayEnd (lexeme : Lexeme) : Bool :=
  lexeme.demand matches .nothing | .gap

theorem follows_of_nothing {first second : Lexeme} (free : first.demand = .nothing) :
    Follows first second := by
  rw [Follows, free]
  rfl

theorem follows_of_opensGap {first second : Lexeme} (ends : first.mayEnd = true)
    (gap : second.opensGap = true) : Follows first second := by
  rw [mayEnd] at ends
  rw [Follows]
  cases asked : first.demand with
  | nothing => rfl
  | gap => exact gap
  | operand | parenthesis =>
      rw [asked] at ends
      cases ends

/-- The text of a symbol that opens a gap begins with one, if it can be written. -/
theorem isGap_of_opensGap (dialect : Dialect) (written : Nat) {lexeme : Lexeme}
    (gap : lexeme.opensGap = true) (writable : ∀ error, lexeme ≠ .fault error) :
    ∃ char ∈ (spelled dialect written [lexeme]).head?, IsGap char := by
  cases lexeme with
  | fault error => exact (writable error rfl).elim
  | word text =>
      rw [spelled_text dialect written rfl]
      exact ⟨' ', by simpa [opensGap] using gap, .inl rfl⟩
  | operator symbol =>
      rw [spelled_text dialect written rfl, operatorText_eq, String.toList_append,
        String.toList_append]
      exact ⟨' ', rfl, .inl rfl⟩
  | asType type =>
      rw [spelled_text dialect written rfl, String.toList_append]
      exact ⟨' ', rfl, .inl rfl⟩
  | between negated | like negated | isIn negated | isNull negated =>
      rw [spelled_text dialect written rfl]
      cases negated <;> exact ⟨' ', rfl, .inl rfl⟩
  | orderBy following =>
      cases following with
      | false => cases gap
      | true =>
          rw [spelled_text dialect written rfl]
          exact ⟨' ', rfl, .inl rfl⟩
  | closing _ =>
      rw [spelled_text dialect written rfl]
      exact ⟨')', rfl, .inr (.inr rfl)⟩
  | comma =>
      rw [spelled_text dialect written rfl]
      exact ⟨',', rfl, .inr (.inl rfl)⟩
  | «over» | descending | when | thenResult | otherwise | endCase =>
      rw [spelled_text dialect written rfl]
      exact ⟨' ', rfl, .inl rfl⟩
  | _ => cases gap

/-- Behind a literal in a row the text ends, or a gap follows. -/
theorem gapped_of_follows (dialect : Dialect) (written : Nat) {value : Value}
    {rest : List Lexeme} (chain : (.literal value :: rest).IsChain Follows)
    (writable : ∀ error, .fault error ∉ rest) : Gapped (spelled dialect written rest) := by
  cases rest with
  | nil =>
      intro next member
      cases member
  | cons first others =>
      have gap : first.opensGap = true := (List.isChain_cons_cons.mp chain).1
      have known : ∀ error, first ≠ .fault error := by
        rintro error rfl
        exact writable error List.mem_cons_self
      obtain ⟨char, begins, isGap⟩ := isGap_of_opensGap dialect written gap known
      intro next member
      rw [spelled_cons, List.head?_append, begins, Option.some_or] at member
      cases member
      exact isGap

/-- Every symbol of a row may stand where it stands, and the row does not break off. -/
structure Spaced (lexemes : List Lexeme) : Prop where
  chain : (flatten lexemes).IsChain Follows
  complete : ∀ last ∈ (flatten lexemes).getLast?, last.mayEnd = true

/-- Nothing stands in the row, or a gap begins it. -/
def Opens (lexemes : List Lexeme) : Prop :=
  ∀ first ∈ (flatten lexemes).head?, first.opensGap = true

namespace Spaced

variable {lexemes left right : List Lexeme}

theorem nil : Spaced [] := ⟨List.isChain_nil, by simp⟩

theorem append (first : Spaced left) (second : Spaced right) (opens : Opens right) :
    Spaced (left ++ right) := by
  constructor
  · rw [flatten_append, List.isChain_append]
    refine ⟨first.chain, second.chain, ?_⟩
    intro last lastMember next nextMember
    exact follows_of_opensGap (first.complete last lastMember) (opens next nextMember)
  · intro last member
    rw [flatten_append, List.getLast?_append, Option.mem_def, Option.or_eq_some_iff] at member
    rcases member with member | ⟨_, member⟩
    · exact second.complete last member
    · exact first.complete last member

/-- A symbol that the row may end with. -/
theorem singleton {lexeme : Lexeme} (flat : lexeme.flat = [lexeme])
    (ends : lexeme.mayEnd = true) : Spaced [lexeme] := by
  have row : flatten [lexeme] = [lexeme] := flatten_cons_of_flat flat []
  constructor
  · rw [row]
    exact List.isChain_singleton lexeme
  · intro last member
    rw [row] at member
    cases member
    exact ends

/-- A symbol ahead of a row that begins with what it asks for. -/
theorem cons_of_head {first lexeme : Lexeme} (flat : lexeme.flat = [lexeme])
    (begins : first ∈ (flatten lexemes).head?) (follows : Follows lexeme first)
    (rest : Spaced lexemes) : Spaced (lexeme :: lexemes) := by
  obtain ⟨others, row⟩ := List.head?_eq_some_iff.mp begins
  constructor
  · rw [flatten_cons_of_flat flat, row, List.isChain_cons_cons]
    exact ⟨follows, row ▸ rest.chain⟩
  · rw [flatten_cons_of_flat flat, row, List.getLast?_cons_cons]
    exact row ▸ rest.complete

/-- A symbol that anything may stand behind. -/
theorem cons {lexeme : Lexeme} (flat : lexeme.flat = [lexeme])
    (free : lexeme.demand = .nothing) (rest : Spaced lexemes) : Spaced (lexeme :: lexemes) := by
  cases begins : (flatten lexemes).head? with
  | none =>
      have empty : flatten (lexeme :: lexemes) = flatten [lexeme] := by
        rw [flatten_cons, List.head?_eq_none_iff.mp begins]
        rfl
      have one := singleton flat (by rw [mayEnd, free])
      exact ⟨empty ▸ one.chain, empty ▸ one.complete⟩
  | some first => exact rest.cons_of_head flat begins (follows_of_nothing free)

end Spaced

end Lexeme

/-! ## The row of a statement -/

/-- The declaration of a common table in a WITH clause. -/
def CommonQuery.declaration (database : Database) (common : CommonQuery) : List Lexeme :=
  [.word common.alias.displayName, .word " as ", .query (common.query.lexemes database)]

/-- The symbols of a statement, the declarations of its common tables first. -/
def Query.statement (database : Database) (query : Query) : List Lexeme :=
  match query.hoisted database.dialect.windowClauses with
  | [] => query.lexemes database
  | tables =>
    .word "with " :: Lexeme.separated (tables.map (CommonQuery.declaration database)) ++
      .word " " :: query.lexemes database

/-- The symbols of a statement in one row. -/
def Query.row (database : Database) (query : Query) : List Lexeme :=
  Lexeme.flatten (query.statement database)

theorem CommonQuery.allPieces_declarations (database : Database) (tables : List CommonQuery) :
    Lexeme.allPieces database.dialect
        (Lexeme.separated (tables.map (CommonQuery.declaration database))) =
      Piece.declarations (tables.map (CommonQuery.table database)) := by
  have one (common : CommonQuery) :
      Lexeme.allPieces database.dialect (common.declaration database) =
        Piece.declaration (common.table database) := by
    simp only [CommonQuery.declaration, Lexeme.allPieces_cons, Lexeme.allPieces_nil,
      List.append_nil]
    rfl
  induction tables with
  | nil => rfl
  | cons common rest ih =>
      cases rest with
      | nil => exact one common
      | cons second others =>
          simp only [List.map_cons, Lexeme.separated, Piece.declarations,
            Lexeme.allPieces_append, Lexeme.allPieces_cons, one] at ih ⊢
          rw [ih]
          rfl

/-- The row of a statement has the pieces of its text. -/
theorem Query.allPieces_row (database : Database) (query : Query) :
    Lexeme.allPieces database.dialect (query.row database) = query.pieces database := by
  rw [Query.row, Lexeme.allPieces_flatten, Query.statement, Query.pieces]
  cases query.hoisted database.dialect.windowClauses with
  | nil => rfl
  | cons common rest =>
      simp only [Lexeme.allPieces_append, Lexeme.allPieces_cons,
        CommonQuery.allPieces_declarations]
      rfl

theorem Query.Prepares.not_fault_mem_row {database : Database} {query : Query}
    {prepared : Prepared} (prepares : query.Prepares database prepared) (error : QueryError) :
    .fault error ∉ query.row database := by
  intro member
  obtain ⟨before, after, row⟩ := List.append_of_mem member
  apply Piece.not_fault_of_check prepares.check_pieces error
  rw [← Query.allPieces_row, row, Lexeme.allPieces_append, Lexeme.allPieces_cons]
  exact List.mem_append_right _ (List.mem_append_left _ (List.mem_singleton.mpr rfl))

/-- A prepared text is spelled along the row of its statement. -/
theorem Query.Prepares.text_eq_spelled {database : Database} {query : Query}
    {prepared : Prepared} (prepares : query.Prepares database prepared) :
    prepared.text.toList = Lexeme.spelled database.dialect 0 (query.row database) := by
  rw [prepares.text, Lexeme.spelled, Query.allPieces_row]

end SqlSelect
