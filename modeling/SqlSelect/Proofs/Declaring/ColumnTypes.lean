import SqlSelect.Proofs.Declaring.Catalog

/-!
# Names of column types

The type of a column is named after its field: low lines are dropped, and the letter behind
each of them becomes a capital, as does the first.  Different names may come to the same type
name.  They do just where one can be respelled as the other, by dropping low lines ahead of
anything but a small letter, and by writing a capital for a small letter and the low line ahead
of it.  Names that are plainly made of words never do, and their type names are identifiers.
-/

namespace SqlSelect.Naming

/-! ## Letters -/

theorem toUpper_of_not_small {char : Char} (other : char.isLower = false) :
    char.toUpper = char := by
  refine dif_neg fun ⟨least, greatest⟩ => ?_
  have small : char.isLower = true :=
    Bool.and_eq_true_iff.mpr ⟨decide_eq_true least, decide_eq_true greatest⟩
  rw [small] at other
  cases other

/-- What the capital of a small letter is. -/
structure IsCapital (letter capital : Char) : Prop where
  isUpper : capital.isUpper = true
  toLower : capital.toLower = letter
  not_small : capital.isLower = false
  ne_lowLine : capital ≠ '_'

theorem isCapital_toUpper {letter : Char} (small : letter.isLower = true) :
    IsCapital letter letter.toUpper := by
  have each : ∀ number < 123, (Char.ofNat number).isLower = true →
      (Char.ofNat number).toUpper.isUpper = true ∧
        (Char.ofNat number).toUpper.toLower = Char.ofNat number ∧
        (Char.ofNat number).toUpper.isLower = false ∧ (Char.ofNat number).toUpper ≠ '_' := by
    decide
  have bound : letter.toNat < 123 :=
    Nat.lt_succ_of_le (of_decide_eq_true (Bool.and_eq_true_iff.mp small).2)
  rw [← Char.ofNat_toNat letter] at small ⊢
  obtain ⟨isUpper, toLower, not_small, ne_lowLine⟩ := each letter.toNat bound small
  exact ⟨isUpper, toLower, not_small, ne_lowLine⟩

theorem toUpper_toUpper (char : Char) : char.toUpper.toUpper = char.toUpper := by
  cases small : char.isLower with
  | true => exact toUpper_of_not_small (isCapital_toUpper small).not_small
  | false => rw [toUpper_of_not_small small, toUpper_of_not_small small]

theorem toUpper_eq_lowLine {char : Char} : char.toUpper = '_' ↔ char = '_' := by
  cases small : char.isLower with
  | true =>
      refine iff_of_false (isCapital_toUpper small).ne_lowLine ?_
      rintro rfl
      cases small
  | false => rw [toUpper_of_not_small small]

/-! ## Names that are spelled alike -/

@[simp] theorem pascal_lowLine (starting : Bool) (rest : List Char) :
    pascal starting ('_' :: rest) = pascal true rest := by
  rw [pascal, if_pos rfl]

theorem pascal_cons {char : Char} (other : char ≠ '_') (starting : Bool) (rest : List Char) :
    pascal starting (char :: rest) =
      (if starting then char.toUpper else char) :: pascal false rest := by
  rw [pascal, if_neg other]

/-- A name is respelled for the same column type: a low line that starts no word is dropped, or
the start of a word is marked by its capital alone. -/
inductive Respells : List Char → List Char → Prop where
  | lowLine (before : List Char) {after : List Char} :
      (∀ next ∈ after.head?, next.isLower = false) →
      Respells (before ++ '_' :: after) (before ++ after)
  | capital (before : List Char) {letter : Char} (after : List Char) :
      letter.isLower = true →
      Respells (before ++ '_' :: letter :: after) (before ++ letter.toUpper :: after)
  | first {letter : Char} (after : List Char) :
      letter.isLower = true → Respells (letter :: after) (letter.toUpper :: after)

/-- Two names are spellings of one. -/
def Alike (first second : String) : Prop :=
  Relation.EqvGen Respells first.toList second.toList

/-- What is alike wherever it stands is alike behind anything. -/
theorem pascal_append_congr {first second : List Char}
    (same : ∀ starting, pascal starting first = pascal starting second) (before : List Char)
    (starting : Bool) : pascal starting (before ++ first) = pascal starting (before ++ second) := by
  induction before generalizing starting with
  | nil => exact same starting
  | cons char rest ih =>
      rw [List.cons_append, List.cons_append, pascal, pascal, ih, ih]

theorem pascal_of_respells {first second : List Char} (respells : Respells first second) :
    pascal true first = pascal true second := by
  cases respells with
  | @lowLine before after other =>
      apply pascal_append_congr
      intro starting
      rw [pascal_lowLine]
      cases after with
      | nil => rfl
      | cons next rest =>
          have kept := toUpper_of_not_small (other next rfl)
          rw [pascal, pascal, kept, ite_self, ite_self]
  | capital before after small =>
      apply pascal_append_congr
      intro starting
      have capital := (isCapital_toUpper small).ne_lowLine
      have letter : _ ≠ '_' := fun same => capital (toUpper_eq_lowLine.mpr same)
      rw [pascal_lowLine, pascal_cons letter, pascal_cons capital, toUpper_toUpper, ite_self,
        if_pos rfl]
  | first after small =>
      have capital := (isCapital_toUpper small).ne_lowLine
      have letter : _ ≠ '_' := fun same => capital (toUpper_eq_lowLine.mpr same)
      rw [pascal_cons letter, pascal_cons capital, toUpper_toUpper, if_pos rfl, if_pos rfl]

/-- Wherever characters stand, behind a low line or within a word, they can be respelled as they
stand in the type name. -/
theorem eqvGen_pascal (chars : List Char) (starting : Bool) (before : List Char) :
    Relation.EqvGen Respells (before ++ if starting then '_' :: chars else chars)
      (before ++ pascal starting chars) := by
  induction chars generalizing starting before with
  | nil =>
      cases starting with
      | false => exact .refl _
      | true => exact .rel _ _ (.lowLine before nofun)
  | cons char rest ih =>
      have within (char : Char) :
          Relation.EqvGen Respells (before ++ char :: rest)
            (before ++ char :: pascal false rest) := by
        simpa using ih false (before ++ [char])
      by_cases lowLine : char = '_'
      · subst lowLine
        rw [pascal_lowLine]
        cases starting with
        | false => exact ih true before
        | true =>
            have dropped : Respells (before ++ '_' :: '_' :: rest) (before ++ '_' :: rest) :=
              .lowLine before (by simp)
            exact .trans _ _ _ (.rel _ _ dropped) (ih true before)
      · rw [pascal_cons lowLine]
        cases starting with
        | false => exact within char
        | true =>
            cases small : char.isLower with
            | true => exact .trans _ _ _ (.rel _ _ (.capital before rest small)) (within _)
            | false =>
                have dropped : Respells (before ++ '_' :: char :: rest) (before ++ char :: rest) :=
                  .lowLine before (by simp [small])
                rw [toUpper_of_not_small small]
                exact .trans _ _ _ (.rel _ _ dropped) (within char)

/-- A name can be respelled as the name of its type. -/
theorem eqvGen_pascal_self (chars : List Char) :
    Relation.EqvGen Respells chars (pascal true chars) := by
  cases chars with
  | nil => exact .refl _
  | cons char rest =>
      by_cases lowLine : char = '_'
      · subst lowLine
        rw [pascal_lowLine]
        exact eqvGen_pascal rest true []
      · have within (char : Char) :
            Relation.EqvGen Respells (char :: rest) (char :: pascal false rest) :=
          eqvGen_pascal rest false [char]
        rw [pascal_cons lowLine]
        cases small : char.isLower with
        | true => exact .trans _ _ _ (.rel _ _ (.first rest small)) (within _)
        | false =>
            rw [toUpper_of_not_small small]
            exact within char

/-- What is the same before and after a step, and can be led back by steps, tells two items apart
just where no steps connect them. -/
theorem image_eq_iff_eqvGen {Item Image : Type} {step : Item → Item → Prop} {image : Item → Image}
    (back : Image → Item) (leads : ∀ item, Relation.EqvGen step item (back (image item)))
    (keeps : ∀ one other, step one other → image one = image other) {first second : Item} :
    image first = image second ↔ Relation.EqvGen step first second := by
  constructor
  · intro same
    have behind := (leads second).symm
    rw [← same] at behind
    exact (leads first).trans _ _ _ behind
  · intro connected
    exact congrArg (Quot.lift image keeps) (Quot.eqvGen_sound connected)

/-- Two fields come to the same type name just where their names are alike. -/
theorem columnType_eq_iff {first second : String} :
    columnType first = columnType second ↔ Alike first second := by
  rw [columnType, columnType, String.ofList_inj]
  exact image_eq_iff_eqvGen (fun chars => chars) eqvGen_pascal_self
    fun _ _ => pascal_of_respells

/-! ## Identifiers -/

/-- The characters that names are made of.  Beyond letters it is left open which they are. -/
structure Alphabet where
  starts : Char → Bool
  continues : Char → Bool
  starts_of_letter : ∀ {char}, char.isAlpha = true → starts char = true
  continues_of_starts : ∀ {char}, starts char = true → continues char = true
  continues_lowLine : continues '_' = true
  not_continues_hash : continues '#' = false

/-- Words that are no identifiers. -/
def reserved : List String :=
  ["abstract", "as", "async", "await", "become", "box", "break", "const", "continue", "crate",
    "do", "dyn", "else", "enum", "extern", "false", "final", "fn", "for", "gen", "if", "impl",
    "in", "let", "loop", "macro", "match", "mod", "move", "mut", "override", "priv", "pub",
    "ref", "return", "self", "Self", "static", "struct", "super", "trait", "true", "try", "type",
    "typeof", "unsafe", "unsized", "use", "virtual", "where", "while", "yield"]

/-- A character that starts names, or a low line that does not stand alone, and characters that
continue them. -/
def Alphabet.isWord (alphabet : Alphabet) : List Char → Bool
  | [] => false
  | first :: rest =>
    (alphabet.starts first || first == '_' && !rest.isEmpty) && rest.all alphabet.continues

/-- A word that is not reserved. -/
def Alphabet.isIdentifier (alphabet : Alphabet) (word : String) : Bool :=
  alphabet.isWord word.toList && !reserved.contains word

/-- Reserved words that start paths. -/
def pathWords : List String :=
  ["crate", "self", "Self", "super"]

/-- Fields are named by identifiers, or by raw words.  These may be reserved, but for the ones
that start paths. -/
def Alphabet.isFieldName (alphabet : Alphabet) (name : String) : Bool :=
  alphabet.isIdentifier name ||
    match name.toList with
    | 'r' :: '#' :: word =>
      alphabet.isWord word && !pathWords.contains (String.ofList word)
    | _ => false

/-- The first character that is no low line. -/
def leading? (name : String) : Option Char :=
  name.toList.find? (· ≠ '_')

theorem head?_pascal (chars : List Char) :
    (pascal true chars).head? = (chars.find? (· ≠ '_')).map Char.toUpper := by
  induction chars with
  | nil => rfl
  | cons char rest ih =>
      by_cases lowLine : char = '_'
      · subst lowLine
        rw [pascal_lowLine, ih]
        rfl
      · rw [pascal_cons lowLine, List.find?_cons_of_pos (by simpa using lowLine)]
        rfl

theorem mem_pascal {starting : Bool} {chars : List Char} {char : Char}
    (member : char ∈ pascal starting chars) :
    ∃ written ∈ chars, char = written ∨ char = written.toUpper := by
  induction chars generalizing starting with
  | nil => cases member
  | cons first rest ih =>
      by_cases lowLine : first = '_'
      · subst lowLine
        rw [pascal_lowLine] at member
        obtain ⟨written, known, same⟩ := ih member
        exact ⟨written, List.mem_cons_of_mem _ known, same⟩
      · rw [pascal_cons lowLine] at member
        rcases List.mem_cons.mp member with rfl | member
        · refine ⟨first, List.mem_cons_self, ?_⟩
          cases starting with
          | false => exact .inl rfl
          | true => exact .inr rfl
        · obtain ⟨written, known, same⟩ := ih member
          exact ⟨written, List.mem_cons_of_mem _ known, same⟩

/-- What is neither a low line nor a small letter stays. -/
theorem mem_pascal_of_mem {starting : Bool} {chars : List Char} {char : Char}
    (kept : char ≠ '_') (other : char.isLower = false) (member : char ∈ chars) :
    char ∈ pascal starting chars := by
  induction chars generalizing starting with
  | nil => cases member
  | cons first rest ih =>
      rw [pascal]
      rcases List.mem_cons.mp member with rfl | member
      · rw [if_neg kept, toUpper_of_not_small other, ite_self]
        exact List.mem_cons_self
      · split
        · exact ih member
        · exact List.mem_cons_of_mem _ (ih member)

theorem head?_columnType (name : String) :
    (columnType name).toList.head? = (leading? name).map Char.toUpper := by
  rw [columnType, String.toList_ofList, head?_pascal]
  rfl

/-- A type name is empty just if its field has a name of low lines alone. -/
theorem columnType_eq_empty_iff {name : String} :
    columnType name = "" ↔ ∀ char ∈ name.toList, char = '_' := by
  rw [← String.toList_eq_nil_iff, ← List.head?_eq_none_iff, head?_columnType,
    Option.map_eq_none_iff, leading?, List.find?_eq_none]
  simp

theorem leading?_ne {name : String} {char : Char} (leads : leading? name = some char) :
    char ≠ '_' := by
  simpa using List.find?_some leads

theorem isAlpha_of_small {letter : Char} (small : letter.isLower = true) :
    letter.isAlpha = true :=
  Bool.or_eq_true_iff.mpr (.inr small)

theorem not_small_toUpper (char : Char) : char.toUpper.isLower = false := by
  cases small : char.isLower with
  | true => exact (isCapital_toUpper small).not_small
  | false => rwa [toUpper_of_not_small small]

/-- But for one, reserved words start with a small letter, which type names do not. -/
theorem columnType_of_reserved {name : String} (member : columnType name ∈ reserved) :
    columnType name = "Self" := by
  have small : ∀ word ∈ reserved, word ≠ "Self" →
      word.toList.head?.any Char.isLower = true := by decide
  by_cases same : columnType name = "Self"
  · exact same
  · have starts := small _ member same
    rw [head?_columnType] at starts
    cases leads : leading? name with
    | none =>
        rw [leads] at starts
        cases starts
    | some char =>
        rw [leads] at starts
        have capital : char.toUpper.isLower = true := starts
        rw [not_small_toUpper] at capital
        cases capital

namespace Alphabet

variable (alphabet : Alphabet)

theorem starts_toUpper (char : Char) : alphabet.starts char.toUpper = alphabet.starts char := by
  cases small : char.isLower with
  | true =>
      have capital : char.toUpper.isAlpha = true :=
        Bool.or_eq_true_iff.mpr (.inl (isCapital_toUpper small).isUpper)
      rw [alphabet.starts_of_letter capital, alphabet.starts_of_letter (isAlpha_of_small small)]
  | false => rw [toUpper_of_not_small small]

theorem continues_toUpper {char : Char} (continued : alphabet.continues char = true) :
    alphabet.continues char.toUpper = true := by
  cases small : char.isLower with
  | true =>
      apply alphabet.continues_of_starts
      rw [alphabet.starts_toUpper]
      exact alphabet.starts_of_letter (isAlpha_of_small small)
  | false => rwa [toUpper_of_not_small small]

theorem isIdentifier_iff {word : String} :
    alphabet.isIdentifier word = true ↔
      ∃ first rest, word.toList = first :: rest ∧
        (alphabet.starts first = true ∨ first = '_' ∧ rest ≠ []) ∧
        (∀ char ∈ rest, alphabet.continues char = true) ∧ word ∉ reserved := by
  rw [isIdentifier]
  cases written : word.toList with
  | nil => simp [isWord]
  | cons first rest => simp [isWord, and_assoc]

theorem continues_of_isIdentifier {word : String} (legal : alphabet.isIdentifier word = true)
    {char : Char} (member : char ∈ word.toList) : alphabet.continues char = true := by
  obtain ⟨first, rest, written, starts, continues, _⟩ := alphabet.isIdentifier_iff.mp legal
  rw [written] at member
  rcases List.mem_cons.mp member with rfl | member
  · rcases starts with starts | ⟨rfl, _⟩
    · exact alphabet.continues_of_starts starts
    · exact alphabet.continues_lowLine
  · exact continues char member

theorem not_mem_of_isIdentifier {word : String} (legal : alphabet.isIdentifier word = true) :
    '#' ∉ word.toList := by
  intro member
  have continued := alphabet.continues_of_isIdentifier legal member
  rw [alphabet.not_continues_hash] at continued
  cases continued

theorem isIdentifier_or_raw {name : String} (legal : alphabet.isFieldName name = true) :
    alphabet.isIdentifier name = true ∨ ∃ word, name.toList = 'r' :: '#' :: word := by
  rw [isFieldName, Bool.or_eq_true] at legal
  refine legal.imp_right fun raw => ?_
  split at raw
  · exact ⟨_, ‹_›⟩
  · cases raw

/-- The type name of a field is an identifier if the field's name is not raw and the first
character in it that is no low line may start one, unless it is the one reserved word with a
capital. -/
theorem isIdentifier_columnType_iff {name : String} (legal : alphabet.isFieldName name = true) :
    alphabet.isIdentifier (columnType name) = true ↔
      '#' ∉ name.toList ∧ (∃ char, leading? name = some char ∧ alphabet.starts char = true) ∧
        ¬ Alike name "self" := by
  have self : columnType name = "Self" ↔ Alike name "self" := by
    rw [← columnType_eq_iff]
    rfl
  rw [← self]
  constructor
  · intro valid
    obtain ⟨first, rest, written, starts, -, free⟩ := alphabet.isIdentifier_iff.mp valid
    have head := head?_columnType name
    rw [written] at head
    obtain ⟨char, leads, rfl⟩ := Option.map_eq_some_iff.mp head.symm
    refine ⟨fun raw => alphabet.not_mem_of_isIdentifier valid ?_, ⟨char, leads, ?_⟩, ?_⟩
    · rw [columnType, String.toList_ofList]
      exact mem_pascal_of_mem (by decide) rfl raw
    · rcases starts with starts | ⟨lowLine, _⟩
      · rwa [alphabet.starts_toUpper] at starts
      · exact (leading?_ne leads (toUpper_eq_lowLine.mp lowLine)).elim
    · intro same
      rw [same] at free
      exact free (by decide)
  · rintro ⟨plain, ⟨char, leads, starts⟩, free⟩
    have identifier : alphabet.isIdentifier name = true := by
      rcases alphabet.isIdentifier_or_raw legal with identifier | ⟨word, written⟩
      · exact identifier
      · simp [written] at plain
    rw [isIdentifier_iff]
    have head := head?_columnType name
    rw [leads] at head
    obtain ⟨rest, written⟩ := List.head?_eq_some_iff.mp head
    refine ⟨char.toUpper, rest, written, .inl ?_, ?_, fun member => free ?_⟩
    · rwa [alphabet.starts_toUpper]
    · intro other member
      have known : other ∈ pascal true name.toList := by
        rw [columnType, String.toList_ofList] at written
        rw [written]
        exact List.mem_cons_of_mem _ member
      obtain ⟨original, inName, same⟩ := mem_pascal known
      have continued := alphabet.continues_of_isIdentifier identifier inName
      rcases same with rfl | rfl
      · exact continued
      · exact alphabet.continues_toUpper continued
    · exact columnType_of_reserved member

end Alphabet

/-- The ASCII characters of names. -/
def ascii : Alphabet where
  starts := Char.isAlpha
  continues char := char.isAlphanum || char == '_'
  starts_of_letter := id
  continues_of_starts letter := by
    rw [Bool.or_eq_true_iff]
    exact .inl (Bool.or_eq_true_iff.mpr (.inl letter))
  continues_lowLine := by decide
  not_continues_hash := by decide

/-! ## Names made of words -/

/-- Words of small letters and digits, each of which starts with a letter, with one low line
between them.  `starting` tells whether a word has to start. -/
def isWords (starting : Bool) : List Char → Bool
  | [] => !starting
  | char :: rest =>
    if char = '_' then !starting && isWords true rest
    else (char.isLower || !starting && char.isDigit) && isWords false rest

/-- Write each capital as a small letter behind a low line. -/
def snake (chars : List Char) : List Char :=
  chars.flatMap fun char => if char.isUpper then ['_', char.toLower] else [char]

theorem not_isUpper {char : Char} (other : char.isLower = true ∨ char.isDigit = true) :
    char.isUpper = false := by
  refine Bool.eq_false_iff.mpr fun capital => ?_
  have bounds : 65 ≤ char.toNat ∧ char.toNat ≤ 90 := of_decide_eq_true capital
  rcases other with small | digit
  · have above : 97 ≤ char.toNat := of_decide_eq_true (Bool.and_eq_true_iff.mp small).1
    omega
  · have below : char.toNat ≤ 57 := of_decide_eq_true (Bool.and_eq_true_iff.mp digit).2
    omega

/-- The words of a name can be told from the name of its type. -/
theorem snake_pascal {starting : Bool} {chars : List Char}
    (words : isWords starting chars = true) :
    snake (pascal starting chars) = if starting then '_' :: chars else chars := by
  induction chars generalizing starting with
  | nil =>
      cases starting with
      | false => rfl
      | true => cases words
  | cons char rest ih =>
      by_cases lowLine : char = '_'
      · subst lowLine
        rw [isWords, if_pos rfl, Bool.and_eq_true, Bool.not_eq_true'] at words
        rw [pascal_lowLine, ih words.2, words.1]
        rfl
      · rw [isWords, if_neg lowLine, Bool.and_eq_true, Bool.or_eq_true] at words
        obtain ⟨letter, behind⟩ := words
        rw [pascal_cons lowLine, snake, List.flatMap_cons, ← snake, ih behind]
        cases starting with
        | false =>
            have plain := not_isUpper (letter.imp_right fun digit => by simpa using digit)
            simp [plain]
        | true =>
            have capital := isCapital_toUpper (letter.resolve_right (by simp))
            simp [capital.isUpper, capital.toLower]

/-- Names made of words are not alike unless they are the same. -/
theorem eq_of_alike {first second : String} (words : isWords true first.toList = true)
    (others : isWords true second.toList = true) (alike : Alike first second) :
    first = second := by
  have same : pascal true first.toList = pascal true second.toList :=
    String.ofList_inj.mp (columnType_eq_iff.mpr alike)
  have spelled := snake_pascal words
  rw [same, snake_pascal others] at spelled
  exact String.toList_inj.mp (List.cons.inj spelled).2.symm

theorem leading?_of_words {name : String} (words : isWords true name.toList = true) :
    ∃ char, leading? name = some char ∧ char.isLower = true := by
  rw [leading?]
  cases written : name.toList with
  | nil =>
      rw [written] at words
      cases words
  | cons char rest =>
      rw [written, isWords] at words
      split at words
      · cases words
      · rename_i lowLine
        refine ⟨char, List.find?_cons_of_pos (by simpa using lowLine), ?_⟩
        simpa using (Bool.and_eq_true_iff.mp words).1

/-- A field with a name made of words has a type name that is an identifier. -/
theorem Alphabet.isIdentifier_of_words (alphabet : Alphabet) {name : String}
    (legal : alphabet.isFieldName name = true) (words : isWords true name.toList = true) :
    alphabet.isIdentifier (columnType name) = true := by
  have identifier : alphabet.isIdentifier name = true := by
    rcases alphabet.isIdentifier_or_raw legal with identifier | ⟨word, written⟩
    · exact identifier
    · simp [written, isWords] at words
  obtain ⟨char, leads, small⟩ := leading?_of_words words
  rw [alphabet.isIdentifier_columnType_iff legal]
  refine ⟨alphabet.not_mem_of_isIdentifier identifier,
    ⟨char, leads, alphabet.starts_of_letter (isAlpha_of_small small)⟩, fun alike => ?_⟩
  have same := eq_of_alike words (by decide) alike
  obtain ⟨_, _, _, _, _, free⟩ := alphabet.isIdentifier_iff.mp identifier
  rw [same] at free
  exact free (by decide)

end SqlSelect.Naming

namespace SqlSelect

/-! ## Column types of a table -/

open Naming

/-- The names of the column types of a table, and when they go wrong. -/
structure TableDefinition.TypesNamed (definition : TableDefinition) (alphabet : Alphabet) :
    Prop where
  /-- Two columns share a type name just if their fields have names that are alike. -/
  shared : ∀ first ∈ definition.columns, ∀ second ∈ definition.columns,
    first.typeName = second.typeName ↔ Alike first.field second.field
  /-- So no type name stands twice just if no two fields have such names. -/
  distinct : definition.columnTypeNames.Nodup ↔
    definition.columns.Pairwise fun first second => ¬ Alike first.field second.field
  /-- Only names of low lines alone leave nothing of the type name. -/
  empty : ∀ column ∈ definition.columns,
    column.typeName = "" ↔ ∀ char ∈ column.field.toList, char = '_'
  /-- A name may not be raw, has to start like a name behind its low lines, and may not be the one
  word whose capital makes it a reserved word. -/
  valid : ∀ column ∈ definition.columns, alphabet.isIdentifier column.typeName = true ↔
    '#' ∉ column.field.toList ∧
      (∃ char, leading? column.field = some char ∧ alphabet.starts char = true) ∧
      ¬ Alike column.field "self"
  /-- If no type name stands twice, each function gives the type of its own column alone. -/
  own : definition.columnTypeNames.Nodup → ∀ (position : Nat) (accessor : Accessor),
    definition.accessors[position]? = some accessor →
    ∃ type, definition.columnTypes[position]? = some type ∧
      definition.columnTypes.filter (·.typeName == accessor.columnType) = [type]
  /-- The functions are told apart unless a field is called like one that stands there anyway. -/
  functions :
    (definition.recordFunctions.Nodup ↔ ∀ column ∈ definition.columns, column.field ≠ "table") ∧
      (definition.tableFunctions.Nodup ↔
        ∀ column ∈ definition.columns, column.field ≠ "table_name" ∧ column.field ≠ "alias")
  /-- No type name goes wrong where all names are made of words. -/
  words : (∀ column ∈ definition.columns, isWords true column.field.toList = true) →
    definition.columnTypeNames.Nodup ∧
      ∀ column ∈ definition.columns, alphabet.isIdentifier column.typeName = true

/-- Of items with different keys, one alone has the key of any. -/
theorem filter_key_eq {Item : Type} (key : Item → String) {items : List Item}
    (different : (items.map key).Nodup) {position : Nat} {item : Item}
    (at? : items[position]? = some item) : items.filter (key · == key item) = [item] := by
  induction items generalizing position with
  | nil => cases at?
  | cons first rest ih =>
      obtain ⟨new, others⟩ := List.nodup_cons.mp different
      cases position with
      | zero =>
          cases at?
          rw [List.filter_cons_of_pos (by simp), List.filter_eq_nil_iff.mpr]
          intro other member same
          exact new (beq_iff_eq.mp same ▸ List.mem_map_of_mem member)
      | succ position =>
          have behind : rest[position]? = some item := at?
          rw [List.filter_cons_of_neg, ih others behind]
          intro same
          rw [beq_iff_eq.mp same] at new
          exact new (List.mem_map_of_mem (List.mem_of_getElem? behind))

namespace TableDefinition

theorem columnTypes_typeName (definition : TableDefinition) :
    definition.columnTypes.map (·.typeName) = definition.columnTypeNames := by
  rw [columnTypes, columnTypeNames, zipWith_map_self]
  exact List.map_map

theorem accessors_columnType (definition : TableDefinition) :
    definition.accessors.map (·.columnType) = definition.columnTypeNames := by
  rw [accessors, columnTypeNames, zipWith_map_self]
  exact List.map_map

/-- A function gives the type at its position. -/
theorem columnTypes_of_accessors {definition : TableDefinition} {position : Nat}
    {accessor : Accessor} (at? : definition.accessors[position]? = some accessor) :
    ∃ type, definition.columnTypes[position]? = some type ∧
      type.typeName = accessor.columnType := by
  have named : (definition.columnTypes.map (·.typeName))[position]? =
      (definition.accessors.map (·.columnType))[position]? := by
    rw [columnTypes_typeName, accessors_columnType]
  rw [List.getElem?_map, List.getElem?_map, at?] at named
  exact Option.map_eq_some_iff.mp named

theorem nodup_recordFunctions {definition : TableDefinition}
    (different : (definition.columns.map (·.field)).Nodup) :
    definition.recordFunctions.Nodup ↔
      ∀ column ∈ definition.columns, column.field ≠ "table" := by
  rw [recordFunctions, List.nodup_cons, and_iff_left different]
  simp

theorem nodup_tableFunctions {definition : TableDefinition}
    (different : (definition.columns.map (·.field)).Nodup) :
    definition.tableFunctions.Nodup ↔
      ∀ column ∈ definition.columns, column.field ≠ "table_name" ∧ column.field ≠ "alias" := by
  rw [tableFunctions, List.nodup_cons, List.nodup_cons, and_iff_left different]
  simp [forall_and]

end TableDefinition

/-- The column types of a declaration with names that are legal and different. -/
theorem Declaration.types_named (alphabet : Alphabet) {declaration : Declaration}
    {definition : TableDefinition} (defined : declaration.define = .ok definition)
    (legal : ∀ field ∈ declaration.fields, alphabet.isFieldName field.name = true)
    (different : (declaration.fields.map (·.name)).Nodup) : definition.TypesNamed alphabet := by
  obtain ⟨-, rfl⟩ := define_eq_ok_iff.mp defined
  have legal : ∀ column ∈ declaration.catalog.columns,
      alphabet.isFieldName column.field = true := by
    intro column member
    obtain ⟨field, known, rfl⟩ := List.mem_map.mp member
    exact legal field known
  have different : (declaration.catalog.columns.map (·.field)).Nodup :=
    List.map_map.symm ▸ different
  have distinct : declaration.catalog.columnTypeNames.Nodup ↔
      declaration.catalog.columns.Pairwise fun first second =>
        ¬ Alike first.field second.field := by
    rw [TableDefinition.columnTypeNames, List.Nodup, List.pairwise_map]
    simp only [ne_eq, ← columnType_eq_iff]
    rfl
  constructor
  case shared => exact fun first _ second _ => columnType_eq_iff
  case distinct => exact distinct
  case empty => exact fun column _ => columnType_eq_empty_iff
  case valid =>
    exact fun column member => alphabet.isIdentifier_columnType_iff (legal column member)
  case own =>
    intro unique position accessor at?
    obtain ⟨type, found, same⟩ := TableDefinition.columnTypes_of_accessors at?
    rw [← TableDefinition.columnTypes_typeName] at unique
    exact ⟨type, found, same ▸ filter_key_eq ColumnType.typeName unique found⟩
  case functions =>
    exact ⟨TableDefinition.nodup_recordFunctions different,
      TableDefinition.nodup_tableFunctions different⟩
  case words =>
    intro words
    constructor
    · rw [distinct]
      apply (List.pairwise_map.mp different).imp_of_mem
      intro first second firstKnown secondKnown other alike
      exact other (eq_of_alike (words first firstKnown) (words second secondKnown) alike)
    · intro column member
      exact alphabet.isIdentifier_of_words (legal column member) (words column member)

namespace Sample

/-- A record of integers. -/
def integers (name : String) (fields : List String) : Declaration where
  form := .record
  name := name
  attributes := []
  parameters := []
  fields := fields.map fun field => ⟨field, .path ["i64"] none, []⟩

def employee : Declaration :=
  integers "Employee" ["id", "manager_id", "_note2", "r#type"]

theorem employee_types :
    employee.define = .ok employee.catalog ∧
      (∀ field ∈ employee.fields, ascii.isFieldName field.name = true) ∧
      (employee.fields.map (·.name)).Nodup ∧ employee.catalog.TypesNamed ascii ∧
      employee.catalog.columnTypeNames = ["Id", "ManagerId", "Note2", "R#type"] := by
  have defined : employee.define = .ok employee.catalog := by rfl
  have legal : ∀ field ∈ employee.fields, ascii.isFieldName field.name = true := by decide
  have different : (employee.fields.map (·.name)).Nodup := by decide
  exact ⟨defined, legal, different, Declaration.types_named ascii defined legal different, by rfl⟩

/-- Two lines of an address may come to one column type. -/
theorem lines_clash :
    ¬ ∀ (declaration : Declaration) (definition : TableDefinition),
      declaration.define = .ok definition →
      (∀ field ∈ declaration.fields, ascii.isFieldName field.name = true) →
      (declaration.fields.map (·.name)).Nodup → definition.columnTypeNames.Nodup := by
  intro claimed
  have distinct := claimed (integers "Address" ["line_1", "line1"]) _ rfl (by decide) (by decide)
  revert distinct
  decide

example : ["__", "_1", "self_"].map columnType = ["", "1", "Self"] := by decide

end Sample

end SqlSelect
