import SqlSelect.Query.Writing

/-!
# Prepared statements

The text of a statement with its arguments.  Placeholders are numbered over the
whole text.  A common table is declared once, in a WITH clause ahead of the
outermost statement and behind every common table its own query uses.
-/

namespace SqlSelect

/-- What is handed to a database: a text, and a value for each of its placeholders. -/
structure Prepared where
  text : String
  arguments : List Value
deriving DecidableEq, Repr

/-- A common table with the pieces of its query, parentheses included. -/
structure CommonTable where
  «alias» : Alias
  definition : List Piece

namespace Piece

/-- The arguments of a text, in the order of their places. -/
def arguments : List Piece → List Value
  | [] => []
  | .argument value :: rest => value :: arguments rest
  | _ :: rest => arguments rest

/-- Refuse a text with a part that cannot be written, for the first such part. -/
def check : List Piece → Except QueryError Unit
  | [] => .ok ()
  | .fault error :: _ => .error error
  | _ :: rest => check rest

/-- The declaration of a common table. -/
def declaration (table : CommonTable) : List Piece :=
  .text table.alias.displayName :: .text " as " :: table.definition

/-- The declarations of common tables, separated by commas. -/
def declarations : List CommonTable → List Piece
  | [] => []
  | [table] => declaration table
  | table :: rest => declaration table ++ .text ", " :: declarations rest

/-- The text behind the declarations it needs. -/
def hoisted (tables : List CommonTable) (body : List Piece) : List Piece :=
  match tables with
  | [] => body
  | tables => .text "with " :: declarations tables ++ .text " " :: body

/-- The texts of some pieces, where `written` arguments stand ahead of them. -/
def spell (dialect : Dialect) (written : Nat) : List Piece → List String
  | [] => []
  | .text fixed :: rest => fixed :: spell dialect written rest
  | .argument _ :: rest =>
    dialect.placeholder (written + 1) :: spell dialect (written + 1) rest
  | .fault _ :: rest => spell dialect written rest

end Piece

namespace Lexeme

mutual

/-- Declare the common table that a symbol names, unless it is declared already,
behind the ones its own query uses.  Each query is written once, however often its
table is named, and is checked ahead of those it uses. -/
def declare (dialect : Dialect) (declared : List CommonTable) :
    Lexeme → Except QueryError (List CommonTable)
  | .query body => declareAll dialect declared body
  | .common handle definition =>
    if declared.any (·.alias.same handle) then .ok declared
    else do
      let body := definition ()
      let pieces := body.pieces dialect
      Piece.check pieces
      let used ← declare dialect declared body
      return used ++ [⟨handle, pieces⟩]
  | _ => .ok declared

/-- Declare every common table that some symbols name, in the order of first use. -/
def declareAll (dialect : Dialect) (declared : List CommonTable) :
    List Lexeme → Except QueryError (List CommonTable)
  | [] => .ok declared
  | lexeme :: rest => do
    let declared ← lexeme.declare dialect declared
    declareAll dialect declared rest

end

end Lexeme

/-- Prepare a query for a database, or tell the first thing that cannot be written:
in the query itself, or else in a common table in the order of use. -/
def Query.prepare (database : Database) (query : Query) : Except QueryError Prepared := do
  let body := query.lexemes database
  let pieces := Lexeme.allPieces database.dialect body
  Piece.check pieces
  let tables ← Lexeme.declareAll database.dialect [] body
  let whole := Piece.hoisted tables pieces
  return ⟨String.join (Piece.spell database.dialect 0 whole), Piece.arguments whole⟩

end SqlSelect
