import SqlSelect.Proofs.Spelling.Neat

/-!
# Literals read back

A literal is read from the front of a text by the rules of standard SQL: a quote inside a
text is written twice, `X'..'` holds two hexadecimal digits for each byte, a number is an
optional minus sign and decimal digits, and the longest word there is is read.  What is
read stands behind the literal untouched.

A statement puts nothing behind a literal but a gap, so every literal in it is read back
as the value it was written for.
-/

namespace SqlSelect

/-- What a literal says, before the type of its place is known. -/
inductive Literal where
  | null
  | truth (value : Bool)
  | number (value : Int)
  | text (content : String)
  | bytes (bytes : List UInt8)
deriving DecidableEq, Repr

namespace Quoted

/-- One more character ahead of a text that was read. -/
def prepend (char : Char) (read : List Char × List Char) : List Char × List Char :=
  (char :: read.1, read.2)

/-- Read a text behind its opening quote: a quote written twice is part of the text, and
one that stands alone ends it. -/
def scan? : List Char → Option (List Char × List Char)
  | [] => none
  | '\'' :: '\'' :: rest => (scan? rest).map (prepend '\'')
  | '\'' :: rest => some ([], rest)
  | char :: rest => (scan? rest).map (prepend char)

/-- A text is read as far as it was written, unless a further quote follows. -/
theorem scan?_escape (text : List Char) {rest : List Char} (ends : '\'' ∉ rest.head?) :
    scan? (escape text ++ '\'' :: rest) = some (text, rest) := by
  fun_induction escape text with
  | case1 =>
      cases rest with
      | nil => rfl
      | cons next others =>
          have other : next ≠ '\'' := by simpa using ends
          simp [scan?, other]
  | case2 others ih => simp [scan?, ih, prepend]
  | case3 char others other ih =>
      have unquoted : char ≠ '\'' := fun same => other same
      simp [scan?, unquoted, ih, prepend]

end Quoted

namespace Literal

/-- The character may stand in a word or a number. -/
def isWordChar (char : Char) : Bool :=
  char.isAlphanum || char == '_'

/-- The number that decimal digits stand for. -/
def digits? (word : List Char) : Option Nat :=
  if word ≠ [] ∧ word.all Char.isDigit then some (Nat.ofDigitChars 10 word 0) else none

/-- The literal that a word is, in either case of its letters. -/
def word? (word : List Char) : Option Literal :=
  match digits? word with
  | some value => some (.number value)
  | none =>
    let word := word.map Char.toLower
    if word = "null".toList then some .null
    else if word = "true".toList then some (.truth true)
    else if word = "false".toList then some (.truth false)
    else none

/-- Read a literal from the front of a text, and what stands behind it. -/
def scan? : List Char → Option (Literal × List Char)
  | '\'' :: rest => do
    let (content, rest) ← Quoted.scan? rest
    return (.text (String.ofList content), rest)
  | 'X' :: '\'' :: rest | 'x' :: '\'' :: rest => do
    let (digits, rest) ← Quoted.scan? rest
    return (.bytes (← Hexadecimal.toBytes? digits), rest)
  | '-' :: rest => do
    return (.number (-(← digits? (rest.takeWhile isWordChar))), rest.dropWhile isWordChar)
  | rest => do
    return (← word? (rest.takeWhile isWordChar), rest.dropWhile isWordChar)

end Literal

/-- Truth values have words of their own; the other dialects have digits for them. -/
def Dialect.hasTruthWords : Dialect → Bool
  | .sqlserver | .oracle => false
  | _ => true

/-- The value of a literal, where one of some kind is expected.  Only a digit in place of
a truth value depends on that. -/
def Literal.value? (dialect : Dialect) (expected : Kind) : Literal → Option Value
  | .null => some .null
  | .truth value => some (.bool value)
  | .number value =>
    if expected = .bool ∧ dialect.hasTruthWords = false then
      if value = 1 then some (.bool true) else if value = 0 then some (.bool false) else none
    else if Int64.minValue.toInt ≤ value ∧ value ≤ Int64.maxValue.toInt then
      some (.integer (Int64.ofInt value))
    else none
  | .text content => some (.text content)
  | .bytes content => some (.blob content)

/-- Read a value of some kind from the front of a text, and what stands behind it. -/
def Dialect.readLiteral? (dialect : Dialect) (expected : Kind) (text : List Char) :
    Option (Value × List Char) := do
  let (literal, rest) ← Literal.scan? text
  return (← literal.value? dialect expected, rest)

namespace Literal

variable {word rest : List Char}

/-! ## Words and numbers -/

theorem not_isWordChar_of_gapped (gapped : Lexeme.Gapped rest) :
    ∀ next ∈ rest.head?, isWordChar next = false := by
  intro next member
  rcases gapped next member with rfl | rfl | rfl <;> decide

theorem takeWhile_word (letters : word.all isWordChar = true)
    (gapped : Lexeme.Gapped rest) : (word ++ rest).takeWhile isWordChar = word := by
  rw [List.takeWhile_append_of_pos (List.all_eq_true.mp letters)]
  cases rest with
  | nil => simp
  | cons next others =>
      have gap := not_isWordChar_of_gapped gapped next rfl
      simp [gap]

theorem dropWhile_word (letters : word.all isWordChar = true)
    (gapped : Lexeme.Gapped rest) : (word ++ rest).dropWhile isWordChar = rest := by
  rw [List.dropWhile_append_of_pos (List.all_eq_true.mp letters)]
  cases rest with
  | nil => rfl
  | cons next others =>
      have gap := not_isWordChar_of_gapped gapped next rfl
      simp [gap]

/-- A word ahead of a gap is read as a whole. -/
theorem scan?_word (letters : word.all isWordChar = true) (filled : word ≠ [])
    (gapped : Lexeme.Gapped rest) :
    scan? (word ++ rest) = (word? word).map fun literal => (literal, rest) := by
  cases word with
  | nil => exact (filled rfl).elim
  | cons first others =>
      have inside := List.all_eq_true.mp letters
      have unquoted : '\'' ∉ (others ++ rest).head? := by
        intro member
        cases others with
        | nil => rcases gapped '\'' member with same | same | same <;> cases same
        | cons second more =>
            cases member
            cases inside '\'' (by simp)
      have letter := inside first List.mem_cons_self
      rw [List.cons_append]
      unfold scan?
      split
      · rename_i same
        obtain ⟨rfl, -⟩ := List.cons.inj same
        cases letter
      · rename_i same
        exact (unquoted (by rw [(List.cons.inj same).2]; rfl)).elim
      · rename_i same
        exact (unquoted (by rw [(List.cons.inj same).2]; rfl)).elim
      · rename_i same
        obtain ⟨rfl, -⟩ := List.cons.inj same
        cases letter
      · rw [← List.cons_append, takeWhile_word letters gapped, dropWhile_word letters gapped]
        cases word? (first :: others) <;> rfl

theorem letters_repr (number : Nat) : number.repr.toList.all isWordChar = true := by
  rw [List.all_eq_true]
  intro char member
  rw [Nat.toList_repr] at member
  have digit := Nat.isDigit_of_mem_toDigits (by omega) (by omega) member
  simp [isWordChar, Char.isAlphanum, digit]

theorem digits?_repr (number : Nat) : digits? number.repr.toList = some number := by
  have digits : (Nat.toDigits 10 number).all Char.isDigit = true := by
    rw [List.all_eq_true]
    intro char member
    exact Nat.isDigit_of_mem_toDigits (by omega) (by omega) member
  rw [Nat.toList_repr, digits?, if_pos ⟨Nat.toDigits_ne_nil, digits⟩,
    Nat.ofDigitChars_ten_toDigits]

/-- Digits ahead of a gap are read as their number. -/
theorem scan?_digits (value : Nat) (gapped : Lexeme.Gapped rest) :
    scan? (value.repr.toList ++ rest) = some (.number value, rest) := by
  have filled : value.repr.toList ≠ [] := by
    rw [Nat.toList_repr]
    exact Nat.toDigits_ne_nil
  rw [scan?_word (letters_repr value) filled gapped, word?, digits?_repr]
  rfl

/-- The text of an integer ahead of a gap is read as the integer, its sign included. -/
theorem scan?_integer (value : Int) (gapped : Lexeme.Gapped rest) :
    scan? ((toString value).toList ++ rest) = some (.number value, rest) := by
  cases value with
  | ofNat magnitude => exact scan?_digits magnitude gapped
  | negSucc magnitude =>
      have written : (toString (Int.negSucc magnitude)).toList =
          '-' :: (magnitude + 1).repr.toList := by
        rw [show toString (Int.negSucc magnitude) = "-" ++ (magnitude + 1).repr from rfl,
          String.toList_append]
        rfl
      have letters := letters_repr (magnitude + 1)
      rw [written, List.cons_append, scan?, takeWhile_word letters gapped,
        dropWhile_word letters gapped, digits?_repr]
      rfl

/-! ## Delimited literals -/

/-- A text ahead of anything but a further quote is read as far as it was written. -/
theorem scan?_text (content : String) (ends : '\'' ∉ rest.head?) :
    scan? ((Quoted.literal content).toList ++ rest) = some (.text content, rest) := by
  rw [Quoted.literal, String.toList_ofList, List.cons_append, List.cons_append,
    List.append_assoc, List.singleton_append, scan?, Quoted.scan?_escape content.toList ends]
  simp

/-- Upper-case hexadecimal digits have no quote among them. -/
theorem escape_ofBytes (bytes : List UInt8) :
    Quoted.escape (Hexadecimal.ofBytes bytes) = Hexadecimal.ofBytes bytes := by
  have unquoted : ∀ number < 16, Hexadecimal.digit number ≠ '\'' := by decide
  induction bytes with
  | nil => rfl
  | cons byte others ih =>
      have bound : byte.toNat < 256 := byte.toNat_lt
      have high := unquoted (byte.toNat / 16) (by omega)
      have low := unquoted (byte.toNat % 16) (by omega)
      simp only [Hexadecimal.ofBytes, Quoted.escape, ih]

theorem scan?_bytes (bytes : List UInt8) (ends : '\'' ∉ rest.head?) :
    scan? ((Hexadecimal.literal bytes).toList ++ rest) = some (.bytes bytes, rest) := by
  have digits := Quoted.scan?_escape (Hexadecimal.ofBytes bytes) ends
  rw [escape_ofBytes] at digits
  rw [Hexadecimal.literal, String.toList_ofList]
  simp [scan?, digits]

/-! ## Values -/

theorem unquoted_of_gapped (gapped : Lexeme.Gapped rest) : '\'' ∉ rest.head? := by
  intro member
  rcases gapped '\'' member with same | same | same <;> cases same

theorem value?_integer (dialect : Dialect) {expected : Kind} (number : Int64)
    (typed : expected = .integer ∨ dialect.hasTruthWords = true) :
    (Literal.number number.toInt).value? dialect expected = some (.integer number) := by
  have other : ¬ (expected = .bool ∧ dialect.hasTruthWords = false) := by
    rintro ⟨rfl, words⟩
    rcases typed with typed | typed
    · cases typed
    · rw [typed] at words
      cases words
  rw [value?, if_neg other, if_pos ⟨number.minValue_le_toInt, number.toInt_le⟩, Int64.ofInt_toInt]

end Literal

namespace Dialect

variable {dialect : Dialect} {rest : List Char}

theorem readLiteral?_of_scan? {expected : Kind} {text : List Char} {literal : Literal}
    {value : Value} (scanned : Literal.scan? text = some (literal, rest))
    (valued : literal.value? dialect expected = some value) :
    dialect.readLiteral? expected text = some (value, rest) := by
  simp [readLiteral?, scanned, valued]

theorem literal_of_truthWords (words : dialect.hasTruthWords = true) (truth : Bool) :
    dialect.literal (.bool truth) = if truth then "true" else "false" := by
  cases dialect with
  | sqlserver | oracle => cases words
  | _ => cases truth <;> rfl

theorem literal_of_digits (words : dialect.hasTruthWords = false) (truth : Bool) :
    dialect.literal (.bool truth) = (if truth then 1 else 0 : Nat).repr := by
  cases dialect with
  | sqlserver | oracle => cases truth <;> rfl
  | _ => cases words

/-- Every dialect has the standard literals but for truth values. -/
theorem literal_eq_standard (dialect : Dialect) {value : Value} (other : value.kind ≠ .bool) :
    dialect.literal value = value.literal := by
  cases value with
  | bool _ => exact (other rfl).elim
  | _ => cases dialect <;> rfl

theorem readLiteral?_bool {expected : Kind} (truth : Bool)
    (typed : expected = .bool ∨ dialect.hasTruthWords = true) (gapped : Lexeme.Gapped rest) :
    dialect.readLiteral? expected ((dialect.literal (.bool truth)).toList ++ rest) =
      some (.bool truth, rest) := by
  cases spelling : dialect.hasTruthWords with
  | true =>
      have scanned : Literal.scan? ((dialect.literal (.bool truth)).toList ++ rest) =
          some (.truth truth, rest) := by
        rw [literal_of_truthWords spelling]
        cases truth with
        | false => exact Literal.scan?_word (by decide) (by decide) gapped
        | true => exact Literal.scan?_word (by decide) (by decide) gapped
      exact readLiteral?_of_scan? scanned rfl
  | false =>
      have expected : expected = .bool := by simpa [spelling] using typed
      rw [literal_of_digits spelling]
      apply readLiteral?_of_scan? (Literal.scan?_digits _ gapped)
      rw [Literal.value?, if_pos ⟨expected, spelling⟩]
      cases truth <;> rfl

/-- Ahead of a gap the literal of a value is read to its end, as that value. -/
theorem readLiteral?_literal (dialect : Dialect) {value : Value} {expected : Kind}
    (exact : value.kind ≠ .float)
    (typed : expected = value.kind ∨ dialect.hasTruthWords = true)
    (gapped : Lexeme.Gapped rest) :
    dialect.readLiteral? expected ((dialect.literal value).toList ++ rest) =
      some (value, rest) := by
  have unquoted := Literal.unquoted_of_gapped gapped
  cases value with
  | bool truth => exact readLiteral?_bool truth typed gapped
  | float number => exact (exact rfl).elim
  | null =>
      rw [dialect.literal_eq_standard (by decide)]
      exact readLiteral?_of_scan?
        (Literal.scan?_word (by decide) (by decide) gapped : Literal.scan? _ = some (.null, rest))
        rfl
  | integer number =>
      rw [dialect.literal_eq_standard (by simp [Value.kind])]
      exact readLiteral?_of_scan? (Literal.scan?_integer number.toInt gapped)
        (Literal.value?_integer dialect number typed)
  | text content =>
      rw [dialect.literal_eq_standard (by simp [Value.kind])]
      exact readLiteral?_of_scan? (Literal.scan?_text content unquoted) rfl
  | blob bytes =>
      rw [dialect.literal_eq_standard (by simp [Value.kind])]
      exact readLiteral?_of_scan? (Literal.scan?_bytes bytes unquoted) rfl

/-- The literals of a dialect are read back as the values they are written for. -/
structure LiteralsReadBack (dialect : Dialect) : Prop where
  /-- Ahead of a gap a literal is read to its end, as its value.  What kind of value is
  expected only matters where a truth value is a digit. -/
  reads : ∀ (value : Value) (expected : Kind) (rest : List Char), value.kind ≠ .float →
    (expected = value.kind ∨ dialect.hasTruthWords = true) → Lexeme.Gapped rest →
    dialect.readLiteral? expected ((dialect.literal value).toList ++ rest) = some (value, rest)
  /-- A text ends at its closing quote, whatever is behind it but a further quote. -/
  texts : ∀ (content : String) (expected : Kind) (rest : List Char), '\'' ∉ rest.head? →
    dialect.readLiteral? expected ((dialect.literal (.text content)).toList ++ rest) =
      some (.text content, rest)
  /-- No literal is the beginning of another literal of its kind. -/
  delimits : ∀ (left right : Value) (leftRest rightRest : List Char), left.kind ≠ .float →
    left.kind = right.kind → Lexeme.Gapped leftRest → Lexeme.Gapped rightRest →
    (dialect.literal left).toList ++ leftRest = (dialect.literal right).toList ++ rightRest →
    left = right ∧ leftRest = rightRest
  /-- In every statement for the dialect the text ends behind a literal, or a gap follows. -/
  gaps : ∀ (schema : Option String) (query : Query) (prepared : Prepared) (value : Value)
    (before after : List Lexeme), query.prepare ⟨dialect, schema⟩ = .ok prepared →
    query.row ⟨dialect, schema⟩ = before ++ .literal value :: after →
    ∃ rest, prepared.text.toList =
      Lexeme.spelled dialect 0 before ++ ((dialect.literal value).toList ++ rest) ∧
        Lexeme.Gapped rest

end Dialect

/-- What stands behind a literal of a prepared statement begins with a gap. -/
theorem Query.Prepares.gapped {database : Database} {query : Query} {prepared : Prepared}
    (prepares : query.Prepares database prepared) {value : Value} {before after : List Lexeme}
    (row : query.row database = before ++ .literal value :: after) :
    ∃ rest, prepared.text.toList = Lexeme.spelled database.dialect 0 before ++
      ((database.dialect.literal value).toList ++ rest) ∧ Lexeme.Gapped rest := by
  have chain : (before ++ .literal value :: after).IsChain Lexeme.Follows :=
    row ▸ (query.neat_statement database).chain
  have writable : ∀ error, .fault error ∉ after := by
    intro error member
    apply prepares.not_fault_mem_row error
    rw [row]
    exact List.mem_append_right before (List.mem_cons_of_mem _ member)
  have text := prepares.text_eq_spelled
  rw [row, Lexeme.spelled_append, Lexeme.spelled_cons,
    Lexeme.spelled_text database.dialect _ rfl] at text
  exact ⟨_, text, Lexeme.gapped_of_follows database.dialect _
    (List.isChain_append.mp chain).2.1 writable⟩

/-- In every dialect the literals of all values but floats are read back, and a statement
puts nothing behind them that could be read with them. -/
theorem Dialect.literals_readBack (dialect : Dialect) : dialect.LiteralsReadBack := by
  constructor
  · intro value expected rest exact typed gapped
    exact dialect.readLiteral?_literal exact typed gapped
  · intro content expected rest unquoted
    rw [dialect.literal_eq_standard (by simp [Value.kind])]
    exact readLiteral?_of_scan? (Literal.scan?_text content unquoted) rfl
  · intro left right leftRest rightRest exact same leftGapped rightGapped texts
    have leftRead := dialect.readLiteral?_literal exact (.inl rfl) leftGapped
    have rightRead := dialect.readLiteral?_literal (same ▸ exact) (.inl same) rightGapped
    rw [texts, rightRead] at leftRead
    simpa [eq_comm] using leftRead
  · intro schema query prepared value before after built row
    exact (Query.prepares_of_prepare built).gapped row

example : Dialect.readLiteral? .oracle .text "'it''s', 1".toList =
    some (.text "it's", ", 1".toList) := by decide

end SqlSelect
