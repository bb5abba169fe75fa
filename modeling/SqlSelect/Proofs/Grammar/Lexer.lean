import Mathlib.Data.List.SplitBy
import SqlSelect.Proofs.Grammar.Token
import SqlSelect.Proofs.Prepared.Faithful

/-!
# Cutting the text into tokens

The text of an expression is a row of characters.  Placeholders, leaves and queries stand
between them, and are not looked into.  The lexer knows nothing of how the text was written:
it takes the longest runs of letters and of signs, and looks up each run among the words, the
operators and the functions of the dialect.  So a text that is cut into the tokens of an
expression spells each of them, and keeps it apart from those beside it.
-/

namespace SqlSelect

/-- A character of a text, or a part that is not looked into. -/
inductive Glyph where
  | char (letter : Char)
  | place (value : Value)
  | leaf (text : String)
  | query (pieces : List Piece)

namespace Glyph

/-- The pieces of a glyph's text. -/
def pieces : Glyph → List Piece
  | .char letter => [.text (String.singleton letter)]
  | .place value => [.argument value]
  | .leaf text => [.text text]
  | .query pieces => pieces

/-- The characters of a text. -/
def ofText (text : String) : List Glyph :=
  text.toList.map .char

/-- The glyphs of a piece that is written out in characters. -/
def ofPiece : Piece → List Glyph
  | .text text => ofText text
  | .argument value => [.place value]
  | .fault _ => []

def char? : Glyph → Option Char
  | .char letter => some letter
  | _ => none

/-- A letter, a digit or a low line. -/
def isLetter : Glyph → Bool
  | .char letter => letter.isAlphanum || letter == '_'
  | _ => false

/-- A character of an operator. -/
def isSign : Glyph → Bool
  | .char sign => ['+', '-', '*', '/', '%', '=', '<', '>', '|'].contains sign
  | _ => false

/-- Two glyphs side by side go on with one run. -/
def joins (first second : Glyph) : Bool :=
  first.isLetter && second.isLetter || first.isSign && second.isSign

end Glyph

/-! ## The lexer -/

namespace Lexer

/-- The function of a name. -/
def functionOf? (dialect : Dialect) : String → Option SqlFunction
  | "count" => some .count
  | "sum" => some .sum
  | "avg" => some .avg
  | "min" => some .min
  | "max" => some .max
  | "upper" => some .upper
  | "lower" => some .lower
  | "trim" => some .trim
  | "abs" => some .abs
  | "coalesce" => some .coalesce
  | "row_number" => some .rowNumber
  | "rank" => some .rank
  | "dense_rank" => some .denseRank
  | "first_value" => some .firstValue
  | "last_value" => some .lastValue
  | "lag" => some .lag
  | "lead" => some .lead
  | "char_length" =>
    if dialect ∈ [.ansi, .postgres, .mysql, .derby] then some .length else none
  | "length" => if dialect ∈ [.sqlite, .oracle, .db2] then some .length else none
  | "len" => if dialect = .sqlserver then some .length else none
  | "substring" =>
    if dialect ∈ [.ansi, .postgres, .mysql, .sqlserver, .derby] then some .substring else none
  | "substr" => if dialect ∈ [.sqlite, .oracle, .db2] then some .substring else none
  | _ => none

/-- What a run of characters is read as.  A blank is read as nothing. -/
def ofText? (dialect : Dialect) : String → Option (List Token)
  | " " => some []
  | "(" => some [.opening]
  | ")" => some [.closing]
  | "," => some [.comma]
  | "or" => some [.operator .or]
  | "and" => some [.operator .and]
  | "=" => some [.operator .equal]
  | "<>" => some [.operator .notEqual]
  | "<" => some [.operator .less]
  | "<=" => some [.operator .lessEqual]
  | ">" => some [.operator .greater]
  | ">=" => some [.operator .greaterEqual]
  | "+" => some [.operator .add]
  | "-" => some [.operator .subtract]
  | "*" => some [.operator .multiply]
  | "/" => some [.operator .divide]
  | "%" => some [.operator .remainder]
  | "||" => some [.operator .concat]
  | "not" => some [.keyword .not]
  | "between" => some [.keyword .between]
  | "like" => some [.keyword .like]
  | "in" => some [.keyword .isIn]
  | "is" => some [.keyword .is]
  | "null" => some [.keyword .null]
  | "exists" => some [.keyword .exists]
  | "distinct" => some [.keyword .distinct]
  | "cast" => some [.keyword .cast]
  | "as" => some [.keyword .asType]
  | "over" => some [.keyword .over]
  | "partition" => some [.keyword .partition]
  | "by" => some [.keyword .by]
  | "order" => some [.keyword .order]
  | "desc" => some [.keyword .descending]
  | "case" => some [.keyword .case]
  | "when" => some [.keyword .when]
  | "then" => some [.keyword .thenResult]
  | "else" => some [.keyword .otherwise]
  | "end" => some [.keyword .endCase]
  | "concat" => some [.concat]
  | name => (functionOf? dialect name).map fun function => [.function function]

/-- The tokens of a run. -/
def run? (dialect : Dialect) : List Glyph → Option (List Token)
  | [.place value] => some [.place value]
  | [.leaf text] => some [.leaf text]
  | [.query pieces] => some [.query pieces]
  | run => ofText? dialect (String.ofList (run.filterMap Glyph.char?))

/-- The tokens of a row of glyphs, if each of its runs is known. -/
def tokens? (dialect : Dialect) (glyphs : List Glyph) : Option (List Token) :=
  ((glyphs.splitBy Glyph.joins).mapM (run? dialect)).map List.flatten

/-- Where no run goes on, what is on either side is cut by itself. -/
theorem tokens?_append {dialect : Dialect} {left right : List Glyph}
    {leftTokens rightTokens : List Token} (first : tokens? dialect left = some leftTokens)
    (second : tokens? dialect right = some rightTokens)
    (apart : ∀ last ∈ left.getLast?, ∀ next ∈ right.head?, last.joins next = false) :
    tokens? dialect (left ++ right) = some (leftTokens ++ rightTokens) := by
  obtain ⟨leftRuns, leftRead, rfl⟩ := Option.map_eq_some_iff.mp first
  obtain ⟨rightRuns, rightRead, rfl⟩ := Option.map_eq_some_iff.mp second
  rw [tokens?, List.splitBy_append apart, List.mapM_append, leftRead, rightRead]
  simp

end Lexer

/-! ## The glyphs of a text -/

/-- The glyphs of a literal: a negative number is a minus sign and its magnitude. -/
def Dialect.literalGlyphs (dialect : Dialect) (value : Value) : List Glyph :=
  if value.isNegative && value.hasLiteral then [.char '-', .leaf value.magnitude]
  else [.leaf (dialect.literal value)]

namespace Lexeme

/-- The glyphs of a symbol.  Names, literals and types are leaves; all else that is no argument
and no query is written out in characters. -/
def glyphs (dialect : Dialect) : Lexeme → List Glyph
  | .word text => [.leaf text]
  | .literal value => dialect.literalGlyphs value
  | .column resolved => [.leaf resolved.text]
  | .asType type => Glyph.ofText " as " ++ [.leaf (dialect.castName type)]
  | .query body => [.query ((Lexeme.query body).pieces dialect)]
  | .common handle _ => [.leaf handle.displayName]
  | lexeme => (lexeme.pieces dialect).flatMap Glyph.ofPiece

/-- Where a dialect has no operator that joins texts, its text would be the standard one. -/
theorem operatorText_eq (dialect : Dialect) (symbol : BinaryOperator) :
    operatorText dialect symbol = " " ++ symbol.symbol ++ " " := by
  cases symbol with
  | concat => cases dialect <;> rfl
  | _ => rfl

theorem glyphs_operator (dialect : Dialect) (symbol : BinaryOperator) :
    (Lexeme.operator symbol).glyphs dialect = Glyph.ofText (" " ++ symbol.symbol ++ " ") := by
  simp [glyphs, pieces, Glyph.ofPiece, operatorText_eq]

theorem glyphs_function (dialect : Dialect) (called : SqlFunction) :
    (Lexeme.function called).glyphs dialect = Glyph.ofText (dialect.functionName called) := by
  simp [glyphs, pieces, Glyph.ofPiece]

theorem tokens?_operator (dialect : Dialect) (symbol : BinaryOperator) :
    Lexer.tokens? dialect ((Lexeme.operator symbol).glyphs dialect) =
      some [.operator symbol] := by
  rw [glyphs_operator]
  cases symbol <;> rfl

theorem tokens?_function (dialect : Dialect) (called : SqlFunction) :
    Lexer.tokens? dialect ((Lexeme.function called).glyphs dialect) =
      some [.function called] := by
  rw [glyphs_function]
  cases called with
  | length | substring => cases dialect <;> rfl
  | _ =>
      unfold Dialect.functionName
      split <;> first | contradiction | rfl

/-- A symbol is cut into its tokens. -/
theorem tokens?_glyphs (dialect : Dialect) (lexeme : Lexeme) :
    Lexer.tokens? dialect (lexeme.glyphs dialect) = some (lexeme.cut dialect) := by
  cases lexeme with
  | literal value =>
      rw [glyphs, cut, Dialect.literalGlyphs, Dialect.literalTokens]
      split <;> rfl
  | operator symbol => exact tokens?_operator dialect symbol
  | function called => exact tokens?_function dialect called
  | between negated | like negated | isIn negated | isNull negated | «exists» negated =>
      cases negated <;> rfl
  | orderBy following => cases following <;> rfl
  | _ => rfl

/-- The glyphs of some symbols. -/
def allGlyphs (dialect : Dialect) (lexemes : List Lexeme) : List Glyph :=
  lexemes.flatMap (glyphs dialect)

end Lexeme

/-! ## The text of the glyphs -/

namespace Piece

/-- Two lists of pieces have one text, with one list of arguments. -/
structure SameText (dialect : Dialect) (left right : List Piece) : Prop where
  arguments : arguments left = arguments right
  text : ∀ written,
    String.join (spell dialect written left) = String.join (spell dialect written right)

namespace SameText

variable {dialect : Dialect} {left right leftMore rightMore : List Piece}

theorem refl (pieces : List Piece) : SameText dialect pieces pieces :=
  ⟨rfl, fun _ => rfl⟩

theorem trans {middle : List Piece} (first : SameText dialect left middle)
    (second : SameText dialect middle right) : SameText dialect left right :=
  ⟨first.arguments.trans second.arguments, fun written =>
    (first.text written).trans (second.text written)⟩

theorem append (first : SameText dialect left right)
    (second : SameText dialect leftMore rightMore) :
    SameText dialect (left ++ leftMore) (right ++ rightMore) := by
  constructor
  · rw [arguments_append, arguments_append, first.arguments, second.arguments]
  · intro written
    rw [spell_append, spell_append, String.join_append, String.join_append, first.text,
      first.arguments, second.text]

/-- Fixed texts may be cut in another way. -/
theorem texts (left right : List String) (joined : String.join left = String.join right) :
    SameText dialect (left.map .text) (right.map .text) := by
  have arguments_texts (texts : List String) : Piece.arguments (texts.map .text) = [] := by
    induction texts with
    | nil => rfl
    | cons text rest ih => exact ih
  have spell_texts (texts : List String) (written : Nat) :
      spell dialect written (texts.map .text) = texts := by
    induction texts with
    | nil => rfl
    | cons text rest ih => rw [List.map_cons, spell, ih]
  constructor
  · rw [arguments_texts, arguments_texts]
  · intro written
    rw [spell_texts, spell_texts, joined]

/-- A text is that of its characters. -/
theorem ofText (text : String) :
    SameText dialect [.text text] ((Glyph.ofText text).flatMap Glyph.pieces) := by
  have joined : String.join [text] = String.join (text.toList.map String.singleton) := by
    apply String.toList_inj.mp
    rw [String.toList_join, String.toList_join, List.flatMap_map]
    simp
  have pieces : (Glyph.ofText text).flatMap Glyph.pieces =
      (text.toList.map String.singleton).map .text := by
    rw [Glyph.ofText, List.flatMap_map, List.map_map, List.map_eq_flatMap]
    rfl
  rw [pieces]
  exact texts [text] _ joined

end SameText

/-- Pieces have the text of their glyphs. -/
theorem sameText_ofPiece (dialect : Dialect) (pieces : List Piece) :
    SameText dialect pieces ((pieces.flatMap Glyph.ofPiece).flatMap Glyph.pieces) := by
  induction pieces with
  | nil => exact .refl []
  | cons piece rest ih =>
      have one : SameText dialect [piece] ((Glyph.ofPiece piece).flatMap Glyph.pieces) := by
        cases piece with
        | text text => exact .ofText text
        | argument value => exact .refl _
        | fault error => exact ⟨rfl, fun _ => rfl⟩
      rw [List.flatMap_cons, List.flatMap_append]
      exact one.append ih

end Piece

/-- A negative number that has a literal is written as a minus sign and its magnitude. -/
theorem Dialect.literal_negative (dialect : Dialect) {value : Value}
    (negative : value.isNegative = true) (finite : value.hasLiteral = true) :
    dialect.literal value = "-" ++ value.magnitude := by
  cases value with
  | null | bool _ | text _ | blob _ => cases negative
  | integer number =>
      have below : number.toInt < 0 := by
        simpa [Value.isNegative, Int64.lt_iff_toInt_lt] using negative
      have written : dialect.literal (.integer number) = toString number.toInt := by
        cases dialect <;> rfl
      rw [written, Value.magnitude]
      generalize number.toInt = integer at below
      cases integer with
      | ofNat magnitude => exact absurd below (by simp)
      | negSucc magnitude => rfl
  | float number =>
      have written : dialect.literal (.float number) = number.text := by
        cases dialect <;> rfl
      have isNumber : number.isNan = false := by
        simp [Double.isNan, show number.isFinite = true from finite]
      have isNegative : number.isNegative = true := negative
      rw [written, Double.text, isNumber, isNegative]
      rfl

namespace Lexeme

/-- A symbol has the text of its glyphs. -/
theorem sameText_glyphs (dialect : Dialect) (lexeme : Lexeme) :
    Piece.SameText dialect (lexeme.pieces dialect)
      ((lexeme.glyphs dialect).flatMap Glyph.pieces) := by
  cases lexeme with
  | word _ | column _ | common _ _ => exact .refl _
  | query body =>
      simp only [glyphs, List.flatMap_cons, List.flatMap_nil, List.append_nil]
      exact .refl _
  | literal value =>
      rw [glyphs, Dialect.literalGlyphs]
      split
      case isTrue negative =>
        rw [Bool.and_eq_true] at negative
        apply Piece.SameText.texts [dialect.literal value] ["-", value.magnitude]
        rw [dialect.literal_negative negative.1 negative.2]
        simp [String.join_cons]
      case isFalse => exact .refl _
  | asType type =>
      have split : Piece.SameText dialect [.text (" as " ++ dialect.castName type)]
          ([.text " as "] ++ [.text (dialect.castName type)]) :=
        .texts [" as " ++ dialect.castName type] [" as ", dialect.castName type]
          (by simp [String.join_cons])
      rw [glyphs, List.flatMap_append]
      exact split.trans ((Piece.SameText.ofText " as ").append (.refl _))
  | _ => exact Piece.sameText_ofPiece dialect _

theorem sameText_allGlyphs (dialect : Dialect) (lexemes : List Lexeme) :
    Piece.SameText dialect (allPieces dialect lexemes)
      ((allGlyphs dialect lexemes).flatMap Glyph.pieces) := by
  induction lexemes with
  | nil => exact .refl _
  | cons lexeme rest ih =>
      rw [allPieces_cons, allGlyphs, List.flatMap_cons, List.flatMap_append]
      exact (lexeme.sameText_glyphs dialect).append ih

end Lexeme

end SqlSelect
