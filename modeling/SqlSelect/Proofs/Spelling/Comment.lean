import SqlSelect.Proofs.Spelling.Literal

/-!
# No accidental comments

Two minus signs next to each other, or a slash and a star, would turn the rest of a
statement into a comment.  Where no name in use has a part in such a pair, none stands in
the text of a statement, but within quoted literals: words, operators and suffixes open no
comment, and what a minus sign is written ahead of has no sign of its own.
-/

namespace SqlSelect

/-! ## Literals without their content -/

/-- The literal of a value stands between quotes. -/
def Value.isQuoted : Value → Bool
  | .text _ | .blob _ => true
  | _ => false

/-- A value with the content of its quoted literal left out. -/
def Value.emptied : Value → Value
  | .text _ => .text ""
  | .blob _ => .blob []
  | value => value

/-- A symbol with the content of a quoted literal left out. -/
def Lexeme.emptied : Lexeme → Lexeme
  | .literal value => .literal value.emptied
  | lexeme => lexeme

/-- A text, not empty, that has no part in comments or quotes. -/
structure Clear (text : String) : Prop where
  markless : Markless text.toList
  unquoted : '\'' ∉ text.toList
  filled : text.toList ≠ []

namespace Clear

variable {text : String}

theorem harmless (clear : Clear text) : Harmless text :=
  .of_markless clear.markless clear.unquoted

theorem exists_head (clear : Clear text) : ∃ char ∈ text.toList.head?, char ≠ '-' := by
  obtain ⟨char, rest, letters⟩ := List.exists_cons_of_ne_nil clear.filled
  refine ⟨char, by rw [letters]; rfl, ?_⟩
  rintro rfl
  exact clear.markless.1 (by rw [letters]; exact List.mem_cons_self)

theorem repr (number : Nat) : Clear number.repr := by
  refine ⟨markless_repr number, not_mem_repr (by decide) number, ?_⟩
  rw [Nat.toList_repr]
  exact Nat.toDigits_ne_nil

end Clear

namespace Double

/-- A positional decimal is made of digits and at most a point. -/
theorem not_mem_positional {char : Char} (notDigit : char.isDigit = false) (notPoint : char ≠ '.')
    (digits : Nat) (power : Int) : char ∉ (positional digits power).toList := by
  have notZero : char ≠ '0' := by
    rintro rfl
    cases notDigit
  have number := not_mem_repr notDigit digits
  unfold positional
  split
  · rw [String.toList_append, String.toList_ofList, List.mem_append]
    rintro (member | member)
    · exact number member
    · exact notZero (List.eq_of_mem_replicate member)
  · have padded : char ∉ List.replicate ((-power).toNat + 1 - digits.repr.length) '0' ++
        digits.repr.toList := by
      rw [List.mem_append]
      rintro (member | member)
      · exact notZero (List.eq_of_mem_replicate member)
      · exact number member
    simp only [String.toList_append, String.toList_ofList, List.mem_append]
    rintro ((member | member) | member)
    · exact padded (List.mem_of_mem_take member)
    · exact notPoint (List.mem_singleton.mp member)
    · exact padded (List.mem_of_mem_drop member)

theorem clear_positional (digits : Nat) (power : Int) : Clear (positional digits power) := by
  refine ⟨⟨?_, ?_⟩, ?_, ?_⟩
  · exact not_mem_positional (by decide) (by decide) digits power
  · exact not_mem_positional (by decide) (by decide) digits power
  · exact not_mem_positional (by decide) (by decide) digits power
  · unfold positional
    split <;> simp

theorem clear_magnitudeText (number : Double) : Clear number.magnitudeText := by
  unfold magnitudeText
  split
  · split
    · exact ⟨by decide, by decide, by decide⟩
    · exact clear_positional _ _
  · exact ⟨by decide, by decide, by decide⟩

end Double

namespace Dialect

/-- A literal without quotes is a clear text, or a minus sign ahead of one. -/
theorem exists_clear_literal (dialect : Dialect) {value : Value}
    (unquoted : value.isQuoted = false) :
    ∃ text, Clear text ∧ (dialect.literal value = text ∨
      value.isNegative = true ∧ dialect.literal value = "-" ++ text) := by
  cases value with
  | text _ | blob _ => cases unquoted
  | null =>
      have written : dialect.literal .null = "null" := by cases dialect <;> rfl
      exact ⟨"null", ⟨by decide, by decide, by decide⟩, .inl written⟩
  | bool truth =>
      have word : Clear (dialect.literal (.bool truth)) := by
        cases words : dialect.hasTruthWords with
        | true =>
            rw [literal_of_truthWords words]
            cases truth <;> exact ⟨by decide, by decide, by decide⟩
        | false =>
            rw [literal_of_digits words]
            exact .repr _
      exact ⟨_, word, .inl rfl⟩
  | integer number =>
      have written : dialect.literal (.integer number) = toString number.toInt := by
        cases dialect <;> rfl
      rw [written]
      cases sign : number.toInt with
      | ofNat magnitude => exact ⟨magnitude.repr, .repr magnitude, .inl rfl⟩
      | negSucc magnitude =>
          refine ⟨(magnitude + 1).repr, .repr (magnitude + 1), .inr ⟨?_, rfl⟩⟩
          have below : number.toInt < 0 := by
            rw [sign]
            exact Int.negSucc_lt_zero magnitude
          simpa [Value.isNegative, Int64.lt_iff_toInt_lt] using below
  | float number =>
      have written : dialect.literal (.float number) = number.text := by
        cases dialect <;> rfl
      rw [written, Double.text]
      split
      · exact ⟨"NaN", ⟨by decide, by decide, by decide⟩, .inl rfl⟩
      · split
        · rename_i negative
          exact ⟨_, number.clear_magnitudeText, .inr ⟨negative, rfl⟩⟩
        · exact ⟨_, number.clear_magnitudeText, .inl rfl⟩

/-- The literal of a quoted value without its content. -/
theorem literal_emptied_quoted (dialect : Dialect) {value : Value}
    (quoted : value.isQuoted = true) :
    dialect.literal value.emptied = "''" ∨ dialect.literal value.emptied = "X''" := by
  cases value with
  | text _ =>
      refine .inl ?_
      cases dialect <;> rfl
  | blob _ =>
      refine .inr ?_
      cases dialect <;> rfl
  | _ => cases quoted

theorem emptied_of_unquoted {value : Value} (unquoted : value.isQuoted = false) :
    value.emptied = value := by
  cases value with
  | text _ | blob _ => cases unquoted
  | _ => rfl

theorem unquoted_literal (dialect : Dialect) {value : Value}
    (unquoted : value.isQuoted = false) : '\'' ∉ (dialect.literal value).toList := by
  obtain ⟨text, clear, written | ⟨-, written⟩⟩ := dialect.exists_clear_literal unquoted
  · rw [written]
    exact clear.harmless.unquoted
  · rw [written, String.toList_append, List.mem_append]
    rintro (member | member)
    · revert member
      decide
    · exact clear.harmless.unquoted member

/-- Without its content a literal opens no comment. -/
theorem calm_literal_emptied (dialect : Dialect) (value : Value) :
    Calm (dialect.literal value.emptied).toList := by
  cases quoted : value.isQuoted with
  | true =>
      rcases dialect.literal_emptied_quoted quoted with text | text
      · rw [text]
        decide
      · rw [text]
        decide
  | false =>
      rw [emptied_of_unquoted quoted]
      obtain ⟨text, clear, written | ⟨-, written⟩⟩ := dialect.exists_clear_literal quoted
      · rw [written]
        exact clear.harmless.calm
      · rw [written, String.toList_append]
        obtain ⟨char, begins, unsigned⟩ := clear.exists_head
        exact clear.harmless.calm.sign begins unsigned

/-- The literal of a value without a sign does not begin with a minus sign. -/
theorem exists_head_literal_emptied (dialect : Dialect) {value : Value}
    (unsigned : value.isNegative = false) :
    ∃ char ∈ (dialect.literal value.emptied).toList.head?, char ≠ '-' := by
  cases quoted : value.isQuoted with
  | true =>
      rcases dialect.literal_emptied_quoted quoted with text | text
      · rw [text]
        exact ⟨'\'', rfl, by decide⟩
      · rw [text]
        exact ⟨'X', rfl, by decide⟩
  | false =>
      rw [emptied_of_unquoted quoted]
      obtain ⟨text, clear, written | ⟨negative, -⟩⟩ := dialect.exists_clear_literal quoted
      · rw [written]
        exact clear.exists_head
      · rw [unsigned] at negative
        cases negative

end Dialect

/-! ## Outside quotes -/

namespace Quoted

/-- What stands outside quotes, quotes included, from a place `within` quotes or not.  A
quote written twice within quotes is content. -/
def outside : Bool → List Char → List Char
  | _, [] => []
  | true, '\'' :: '\'' :: rest => outside true rest
  | within, '\'' :: rest => '\'' :: outside (!within) rest
  | true, _ :: rest => outside true rest
  | false, char :: rest => char :: outside false rest

variable {text rest : List Char}

theorem outside_append (unquoted : '\'' ∉ text) (rest : List Char) :
    outside false (text ++ rest) = text ++ outside false rest := by
  induction text with
  | nil => rfl
  | cons char others ih =>
      have other : char ≠ '\'' := fun same => unquoted (same ▸ List.mem_cons_self)
      have further : '\'' ∉ others := fun member => unquoted (List.mem_cons_of_mem char member)
      rw [List.cons_append, List.cons_append, outside, ih further]
      exact other

theorem outside_escape (text : List Char) (ends : '\'' ∉ rest.head?) :
    outside true (escape text ++ '\'' :: rest) = '\'' :: outside false rest := by
  fun_induction escape text with
  | case1 =>
      rw [List.nil_append, outside]
      · rfl
      · rintro others - rfl
        exact ends rfl
  | case2 others ih => simpa [outside] using ih
  | case3 char others other ih =>
      rw [List.cons_append, outside]
      · exact ih
      · exact fun _ same _ => other same
      · exact other

end Quoted

namespace Dialect

/-- Of a literal ahead of anything but a further quote, the content stands within quotes. -/
theorem outside_literal (dialect : Dialect) (value : Value) {rest : List Char}
    (ends : '\'' ∉ rest.head?) :
    Quoted.outside false ((dialect.literal value).toList ++ rest) =
      (dialect.literal value.emptied).toList ++ Quoted.outside false rest := by
  cases value with
  | text content =>
      rw [dialect.literal_eq_standard (by simp [Value.kind]),
        dialect.literal_eq_standard (by simp [Value.emptied, Value.kind])]
      have opened := Quoted.outside_escape content.toList ends
      simp [Value.emptied, Value.literal, Quoted.literal, Quoted.outside, Quoted.escape, opened]
  | blob bytes =>
      rw [dialect.literal_eq_standard (by simp [Value.kind]),
        dialect.literal_eq_standard (by simp [Value.emptied, Value.kind])]
      have opened := Quoted.outside_escape (Hexadecimal.ofBytes bytes) ends
      rw [Literal.escape_ofBytes] at opened
      simp [Value.emptied, Value.literal, Hexadecimal.literal, Hexadecimal.ofBytes,
        Quoted.outside, opened]
  | null | bool _ | integer _ | float _ =>
      exact Quoted.outside_append (dialect.unquoted_literal rfl) rest

end Dialect

/-! ## Rows of symbols -/

namespace Lexeme

/-- A row of symbols that can be written, each where it may stand. -/
structure LaidOut (names : List String) (row : List Lexeme) : Prop where
  chain : row.IsChain Follows
  complete : ∀ last ∈ row.getLast?, last.mayEnd = true
  composed : ∀ lexeme ∈ row, ∀ text ∈ lexeme.texts, Composed names text
  flat : ∀ lexeme ∈ row, lexeme.flat = [lexeme]
  writable : ∀ error, .fault error ∉ row

theorem LaidOut.tail {names : List String} {lexeme : Lexeme} {rest : List Lexeme}
    (laid : LaidOut names (lexeme :: rest)) : LaidOut names rest := by
  refine ⟨laid.chain.tail, ?_, ?_, ?_, ?_⟩
  · intro last member
    apply laid.complete
    rw [List.getLast?_cons, member]
    rfl
  · exact fun other member => laid.composed other (List.mem_cons_of_mem lexeme member)
  · exact fun other member => laid.flat other (List.mem_cons_of_mem lexeme member)
  · exact fun error member => laid.writable error (List.mem_cons_of_mem lexeme member)

/-- The symbol is spelled by a word: it is no literal and no minus sign. -/
def isComposed : Lexeme → Bool
  | .literal _ | .minus => false
  | _ => true

theorem emptied_of_isComposed {lexeme : Lexeme} (worded : lexeme.isComposed = true) :
    lexeme.emptied = lexeme := by
  cases lexeme with
  | literal _ => cases worded
  | _ => rfl

theorem emptied_minus : Lexeme.minus.emptied = .minus := rfl

theorem places_emptied (dialect : Dialect) (lexeme : Lexeme) :
    places dialect [lexeme.emptied] = places dialect [lexeme] := by
  cases lexeme <;> rfl

theorem harmless_operatorText (dialect : Dialect) (symbol : BinaryOperator) :
    Harmless (operatorText dialect symbol) := by
  rw [operatorText_eq]
  cases symbol <;> decide

theorem harmless_functionName (dialect : Dialect) (function : SqlFunction) :
    Harmless (dialect.functionName function) := by
  have standard : Harmless function.ansiName := by
    cases function <;> exact .ofList (by decide)
  unfold Dialect.functionName
  split <;> first | exact standard | exact .ofList (by decide)

theorem harmless_castName (dialect : Dialect) (type : DataType) :
    Harmless (dialect.castName type) := by
  cases dialect <;> cases type <;> exact .ofList (by decide)

section Spelling

variable {names : List String} {lexeme : Lexeme} (dialect : Dialect) (written : Nat)

/-- A symbol that is no literal and no minus sign is spelled by a word composed of its names. -/
theorem exists_composed (flat : lexeme.flat = [lexeme]) (worded : lexeme.isComposed = true)
    (composed : ∀ text ∈ lexeme.texts, Composed names text) :
    ∃ text, Composed names text ∧ spelled dialect written [lexeme] = text.toList := by
  cases lexeme with
  | literal _ | minus => cases worded
  | query body => simp [Lexeme.flat] at flat
  | word text =>
      exact ⟨text, composed text (List.mem_singleton.mpr rfl), spelled_text _ _ rfl⟩
  | column resolved =>
      exact ⟨_, composed _ (List.mem_singleton.mpr rfl), spelled_text _ _ rfl⟩
  | common handle _ =>
      exact ⟨_, composed _ (List.mem_singleton.mpr rfl), spelled_text _ _ rfl⟩
  | argument value =>
      refine ⟨_, ?_, spelled_argument dialect written value⟩
      cases dialect with
      | postgres => exact .append (.fixed (by decide)) (.number _)
      | _ => exact .fixed (by decide : Harmless "?")
  | fault _ => exact ⟨"", .fixed (by decide), rfl⟩
  | operator symbol =>
      exact ⟨_, .fixed (harmless_operatorText dialect symbol), spelled_text _ _ rfl⟩
  | function called =>
      exact ⟨_, .fixed (harmless_functionName dialect called), spelled_text _ _ rfl⟩
  | asType type =>
      exact ⟨_, .append (.fixed (.ofList (by decide))) (.fixed (harmless_castName dialect type)),
        spelled_text _ _ rfl⟩
  | between negated | like negated | isIn negated | isNull negated | «exists» negated =>
      refine ⟨_, .fixed ?_, spelled_text _ _ rfl⟩
      cases negated <;> exact .ofList (by decide)
  | orderBy following =>
      refine ⟨_, .fixed ?_, spelled_text _ _ rfl⟩
      cases following <;> exact .ofList (by decide)
  | not | opening _ | closing _ | comma | concat | distinct | star | cast | «over»
  | partitionBy | descending | case | when | thenResult | otherwise | endCase =>
      refine ⟨_, .fixed ?_, spelled_text _ _ rfl⟩
      exact .ofList (by decide)

theorem spelled_ne_nil_of_opensOperand (operand : lexeme.opensOperand = true)
    (worded : lexeme.isComposed = true) (writable : ∀ error, lexeme ≠ .fault error) :
    spelled dialect written [lexeme] ≠ [] := by
  cases lexeme with
  | fault error => exact (writable error rfl).elim
  | literal value => cases worded
  | column resolved =>
      rw [spelled_text dialect written rfl]
      simp [ResolvedColumn.text]
  | argument value =>
      rw [spelled_argument]
      cases dialect <;> simp [Dialect.placeholder]
  | function called =>
      have standard : called.ansiName.toList ≠ [] := by cases called <;> decide
      rw [spelled_text dialect written rfl]
      unfold Dialect.functionName
      split <;> first | exact standard | decide
  | opening _ | concat | cast | case =>
      rw [spelled_text dialect written rfl]
      decide
  | _ => cases operand

/-- An operand without a sign begins with a character other than a minus sign. -/
theorem exists_head_of_opensOperand (flat : lexeme.flat = [lexeme])
    (operand : lexeme.opensOperand = true) (writable : ∀ error, lexeme ≠ .fault error)
    (composed : ∀ text ∈ lexeme.texts, Composed names text)
    (plain : ∀ name ∈ names, Markless name.toList) :
    ∃ char ∈ (spelled dialect written [lexeme.emptied]).head?, char ≠ '-' := by
  cases worded : lexeme.isComposed with
  | true =>
      rw [emptied_of_isComposed worded]
      obtain ⟨text, word, spelling⟩ := exists_composed dialect written flat worded composed
      obtain ⟨char, rest, begins⟩ := List.exists_cons_of_ne_nil
        (spelled_ne_nil_of_opensOperand dialect written operand worded writable)
      refine ⟨char, by rw [begins]; rfl, ?_⟩
      rintro rfl
      apply word.unsigned plain
      rw [← spelling, begins]
      rfl
  | false =>
      cases lexeme with
      | literal value =>
          rw [emptied, spelled_text dialect written rfl]
          exact dialect.exists_head_literal_emptied (by simpa [opensOperand] using operand)
      | minus => cases operand
      | _ => cases worded

end Spelling

namespace LaidOut

variable {names : List String} {row rest : List Lexeme} {lexeme : Lexeme}

theorem exists_word (laid : LaidOut names (lexeme :: rest)) (worded : lexeme.isComposed = true)
    (dialect : Dialect) (written : Nat) :
    ∃ text, Composed names text ∧ spelled dialect written [lexeme] = text.toList :=
  exists_composed dialect written (laid.flat lexeme List.mem_cons_self) worded
    (laid.composed lexeme List.mem_cons_self)

/-- Behind a minus sign a row goes on with a character other than a minus sign. -/
theorem exists_head_of_minus (laid : LaidOut names (.minus :: rest))
    (plain : ∀ name ∈ names, Markless name.toList) (dialect : Dialect) (written : Nat) :
    ∃ char ∈ (spelled dialect written (rest.map emptied)).head?, char ≠ '-' := by
  cases rest with
  | nil => cases laid.complete .minus rfl
  | cons next others =>
      have member : next ∈ next :: others := List.mem_cons_self
      have operand : next.opensOperand = true := (List.isChain_cons_cons.mp laid.chain).1
      have writable : ∀ error, next ≠ .fault error := by
        rintro error rfl
        exact laid.tail.writable error member
      obtain ⟨char, begins, unsigned⟩ := exists_head_of_opensOperand dialect written
        (laid.tail.flat next member) operand writable (laid.tail.composed next member) plain
      refine ⟨char, ?_, unsigned⟩
      rw [List.map_cons, spelled_cons, List.head?_append, begins]
      rfl

/-- With quoted literals emptied, a row of symbols opens no comment. -/
theorem calm (laid : LaidOut names row)
    (plain : ∀ name ∈ names, Markless name.toList) (dialect : Dialect)
    (written : Nat) : Calm (spelled dialect written (row.map emptied)) := by
  induction row generalizing written with
  | nil => exact .nil
  | cons lexeme rest ih =>
      -- All but a minus sign is calm by itself, so that only its neighbour has to be known.
      rw [List.map_cons, spelled_cons]
      have behind := ih laid.tail (written + places dialect [lexeme.emptied])
      cases worded : lexeme.isComposed with
      | true =>
          obtain ⟨text, word, spelling⟩ := laid.exists_word worded dialect written
          rw [emptied_of_isComposed worded] at behind ⊢
          rw [spelling]
          exact (word.calm plain).append behind
      | false =>
          cases lexeme with
          | literal value =>
              refine Calm.append ?_ behind
              rw [emptied, spelled_text dialect written rfl]
              exact dialect.calm_literal_emptied value
          | minus =>
              obtain ⟨char, begins, unsigned⟩ := laid.exists_head_of_minus plain dialect
                (written + places dialect [Lexeme.minus.emptied])
              rw [emptied_minus, spelled_minus]
              exact behind.sign begins unsigned
          | _ => cases worded

/-- What stands outside quotes in the text of a row is its text with quoted literals
emptied, unless a name has a quote in it. -/
theorem outside_spelled (laid : LaidOut names row)
    (unquoted : ∀ name ∈ names, '\'' ∉ name.toList) (dialect : Dialect) (written : Nat) :
    Quoted.outside false (spelled dialect written row) =
      spelled dialect written (row.map emptied) := by
  induction row generalizing written with
  | nil => rfl
  | cons lexeme rest ih =>
      have behind := ih laid.tail (written + places dialect [lexeme])
      rw [List.map_cons, spelled_cons, spelled_cons dialect written lexeme.emptied,
        places_emptied, ← behind]
      cases worded : lexeme.isComposed with
      | true =>
          obtain ⟨text, word, spelling⟩ := laid.exists_word worded dialect written
          rw [emptied_of_isComposed worded, spelling]
          exact Quoted.outside_append (word.unquoted unquoted) _
      | false =>
          cases lexeme with
          | literal value =>
              have gapped := gapped_of_follows dialect (written + places dialect [.literal value])
                laid.chain laid.tail.writable
              rw [emptied, spelled_text dialect written rfl, spelled_text dialect written rfl]
              exact dialect.outside_literal value (Literal.unquoted_of_gapped gapped)
          | minus =>
              rw [emptied_minus, spelled_minus]
              exact Quoted.outside_append (by decide) _
          | _ => cases worded

end LaidOut

mutual

theorem flat_of_mem_flat {lexeme symbol : Lexeme} (member : symbol ∈ lexeme.flat) :
    symbol.flat = [symbol] := by
  cases lexeme with
  | query body =>
      rw [flat, List.cons_append, List.mem_cons, List.mem_append, List.mem_singleton] at member
      rcases member with rfl | member | rfl
      · rfl
      · exact flat_of_mem_flatten member
      · rfl
  | _ =>
      rw [List.mem_singleton.mp member]
      rfl

/-- No query is left as one symbol in a row. -/
theorem flat_of_mem_flatten {lexemes : List Lexeme} {symbol : Lexeme}
    (member : symbol ∈ flatten lexemes) : symbol.flat = [symbol] := by
  cases lexemes with
  | nil => cases member
  | cons lexeme rest =>
      rw [flatten_cons, List.mem_append] at member
      rcases member with member | member
      · exact flat_of_mem_flat member
      · exact flat_of_mem_flatten member

end

end Lexeme

theorem Query.Prepares.laidOut {database : Database} {query : Query} {prepared : Prepared}
    (prepares : query.Prepares database prepared) :
    Lexeme.LaidOut (query.namesInUse database) (query.row database) := by
  have neat := query.neat_statement database
  exact ⟨neat.chain, neat.complete, neat.composed, fun _ => Lexeme.flat_of_mem_flatten,
    prepares.not_fault_mem_row⟩

/-- The text of a statement with the content of its quoted literals left out. -/
def Query.emptiedText (database : Database) (query : Query) : List Char :=
  Lexeme.spelled database.dialect 0 ((query.row database).map Lexeme.emptied)

/-- The text of a prepared statement opens no comment outside quoted literals. -/
structure Query.Uncommented (database : Database) (query : Query) (prepared : Prepared) :
    Prop where
  /-- The text is spelled along the row of the statement. -/
  text : prepared.text.toList = Lexeme.spelled database.dialect 0 (query.row database)
  /-- No two minus signs stand next to each other outside quoted literals. -/
  minusSigns : ¬ ['-', '-'] <:+: query.emptiedText database
  /-- No star stands behind a slash outside quoted literals. -/
  slashStar : ¬ ['/', '*'] <:+: query.emptiedText database
  /-- Unless a name has a quote in it, just that is what stands outside quotes in the
  text itself. -/
  outside : (∀ name ∈ query.namesInUse database, '\'' ∉ name.toList) →
    Quoted.outside false prepared.text.toList = query.emptiedText database

theorem Query.Prepares.uncommented {database : Database} {query : Query} {prepared : Prepared}
    (prepares : query.Prepares database prepared)
    (plain : ∀ name ∈ query.namesInUse database, Markless name.toList) :
    query.Uncommented database prepared := by
  have laid := prepares.laidOut
  have chain := (laid.calm plain database.dialect 0).chain
  refine ⟨prepares.text_eq_spelled, ?_, ?_, ?_⟩
  · intro within
    exact absurd ( List.IsChain.infix chain within) (by decide)
  · intro within
    exact absurd ( List.IsChain.infix chain within) (by decide)
  · intro unquoted
    rw [prepares.text_eq_spelled]
    exact laid.outside_spelled unquoted database.dialect 0

/-- Where no name in use has a minus sign or a slash in it, a statement that can be prepared
opens no comment outside its quoted literals, for whichever database. -/
theorem Select.prepare_uncommented {select : Select} {prepared : Prepared}
    (built : select.prepare = .ok prepared)
    (plain : ∀ name ∈ select.query.namesInUse select.scope.database, Markless name.toList) :
    select.query.Uncommented select.scope.database prepared :=
  (Select.prepares_of_prepare built).uncommented plain

namespace Sample

/-- Minus signs ahead of numbers with a sign of their own, a division of `count(*)`, and a
text that is full of marks. -/
def remarks : Select :=
  (database.select (.ofTable ⟨0, some "e", staff⟩)).run
    [.select (.negate (.literal (.bigInt (-5)))) (some "low"),
      .comma (.binary .subtract (.column staff number .any)
        (.literal (.double ⟨0x8000000000000000⟩))) none,
      .comma (.binary .divide .countAll (.literal (.bigInt Int64.minValue))) none,
      .comma (.literal (.text "-- it's /*")) none]

def remarksPrepared : Prepared where
  text := "select -(-5) as low, e.ID - -0 as c2, count(*) / -9223372036854775808 as c3, " ++
    "'-- it''s /*' as c4 from EMPLOYEE as e"
  arguments := []

theorem remarks_uncommented :
    remarks.prepare = .ok remarksPrepared ∧
      (∀ name ∈ remarks.query.namesInUse remarks.scope.database, Markless name.toList) ∧
      remarks.query.Uncommented remarks.scope.database remarksPrepared := by
  have built : remarks.prepare = .ok remarksPrepared := by rfl
  have plain : ∀ name ∈ remarks.query.namesInUse remarks.scope.database,
      Markless name.toList := by decide
  exact ⟨built, plain, Select.prepare_uncommented built plain⟩

end Sample

end SqlSelect
