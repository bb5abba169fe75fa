import SqlSelect.Proofs.Declaring.ColumnTypes

/-!
# Names of tables

A table that is given no name is called after its record: every upper-case letter behind the
first character gets a low line ahead of it, and small letters become capitals.  A letter counts
as upper case in any script, but only letters of ASCII change.  Different names come to the same
table name just where one can be recast as the other, by writing a capital for a small letter
and the low line ahead of it, or for a small first letter.  A name that starts with an
upper-case letter and has no low lines can be read off the name of its table.
-/

namespace SqlSelect.Naming

/-! ## Upper-case letters -/

/-- Among the characters of ASCII, the upper-case ones are the capitals. -/
theorem isUppercase_of_ascii {char : Char} (ascii : char.toNat < 128) :
    isUppercase char = char.isUpper := by
  have split : Uppercase.runs = (65, 90, 1) :: Uppercase.runs.tail := rfl
  have late : ∀ run ∈ Uppercase.runs.tail, 128 ≤ run.1 := by decide +kernel
  have others : Uppercase.runs.tail.any (Uppercase.inRun char.toNat) = false := by
    rw [List.any_eq_false]
    rintro ⟨first, last, step⟩ member
    have before : ¬ first ≤ char.toNat := by
      have behind : 128 ≤ first := late _ member
      omega
    simp [Uppercase.inRun, before]
  have capitals : Uppercase.inRun char.toNat (65, 90, 1) = true ↔ char.isUpper = true := by
    change _ ↔ decide (65 ≤ char.toNat ∧ char.toNat ≤ 90) = true
    simp [Uppercase.inRun, Nat.mod_one]
  rw [isUppercase, split, List.any_cons, others, Bool.or_false]
  exact Bool.eq_iff_iff.mpr capitals

theorem isUppercase_of_capital {char : Char} (capital : char.isUpper = true) :
    isUppercase char = true := by
  have bounds : 65 ≤ char.toNat ∧ char.toNat ≤ 90 := of_decide_eq_true capital
  rw [isUppercase_of_ascii (by omega), capital]

theorem not_isUppercase_of_small {letter : Char} (small : letter.isLower = true) :
    isUppercase letter = false := by
  have bound : letter.toNat ≤ 122 := of_decide_eq_true (Bool.and_eq_true_iff.mp small).2
  rw [isUppercase_of_ascii (by omega), not_isUpper (.inl small)]

theorem toLower_of_not_capital {char : Char} (other : char.isUpper = false) :
    char.toLower = char := by
  refine dif_neg fun bounds => ?_
  have capital : char.isUpper = true := decide_eq_true bounds
  rw [capital] at other
  cases other

/-- An upper-case letter is no small letter, so it stays. -/
theorem toUpper_of_isUppercase {char : Char} (upper : isUppercase char = true) :
    char.toUpper = char := by
  cases small : char.isLower with
  | true =>
      rw [not_isUppercase_of_small small] at upper
      cases upper
  | false => exact toUpper_of_not_small small

/-- What is not upper case can be told from its capital. -/
theorem toLower_toUpper {char : Char} (other : isUppercase char = false) :
    char.toUpper.toLower = char := by
  cases small : char.isLower with
  | true => exact (isCapital_toUpper small).toLower
  | false =>
      rw [toUpper_of_not_small small, toLower_of_not_capital]
      refine Bool.eq_false_iff.mpr fun capital => ?_
      rw [isUppercase_of_capital capital] at other
      cases other

/-! ## Names that are recast -/

/-- A name is recast for the same table: a capital behind the first character stands for a small
letter and the low line ahead of it, and a capital in front for a small letter. -/
inductive Recasts : List Char → List Char → Prop where
  | capital (first : Char) (before : List Char) {letter : Char} (after : List Char) :
      letter.isLower = true →
      Recasts (first :: (before ++ '_' :: letter :: after))
        (first :: (before ++ letter.toUpper :: after))
  | first {letter : Char} (after : List Char) :
      letter.isLower = true → Recasts (letter :: after) (letter.toUpper :: after)

/-- Two names are castings of one. -/
def Recast (first second : String) : Prop :=
  Relation.EqvGen Recasts first.toList second.toList

theorem snakeStep_of_isUppercase {char : Char} (upper : isUppercase char = true) :
    snakeStep char = ['_', char] := by
  rw [snakeStep, if_pos upper, toUpper_of_isUppercase upper]

theorem snakeStep_of_not {char : Char} (other : isUppercase char = false) :
    snakeStep char = [char.toUpper] := by
  rw [snakeStep, other]
  rfl

theorem snakeStep_lowLine : snakeStep '_' = ['_'] := by decide

theorem upperSnake_of_recasts {first second : List Char} (recasts : Recasts first second) :
    upperSnake first = upperSnake second := by
  cases recasts with
  | capital first before after small =>
      have capital := isUppercase_of_capital (isCapital_toUpper small).isUpper
      rw [upperSnake, upperSnake, List.flatMap_append, List.flatMap_append, List.flatMap_cons,
        List.flatMap_cons, List.flatMap_cons, snakeStep_lowLine,
        snakeStep_of_not (not_isUppercase_of_small small), snakeStep_of_isUppercase capital]
      rfl
  | first after small => rw [upperSnake, upperSnake, toUpper_toUpper]

/-! ## Reading names of tables -/

/-- The characters of a name behind its first, read off those of a table name.  A low line marks
the upper-case letter behind it; what is not `marked` becomes a small letter. -/
def unsnake (marked : Bool) : List Char → List Char
  | [] => []
  | char :: rest =>
    if char = '_' ∧ rest.head?.any isUppercase = true then unsnake true rest
    else (if marked then char else char.toLower) :: unsnake false rest

/-- The characters of a record's name, read off those of its table's name. -/
def readName : List Char → List Char
  | [] => []
  | first :: rest => first :: unsnake false rest

/-- The name of a record, read off the name of its table. -/
def recordName (table : String) : String :=
  String.ofList (readName table.toList)

theorem unsnake_marked {char : Char} (upper : isUppercase char = true) (rest : List Char) :
    unsnake false ('_' :: char :: rest) = char :: unsnake false rest := by
  have other : char ≠ '_' := by
    rintro rfl
    revert upper
    decide
  rw [unsnake, if_pos ⟨rfl, upper⟩, unsnake, if_neg fun lowLine => other lowLine.1, if_pos rfl]

theorem unsnake_plain {char : Char} (other : char ≠ '_') (rest : List Char) :
    unsnake false (char :: rest) = char.toLower :: unsnake false rest := by
  rw [unsnake, if_neg fun lowLine => other lowLine.1, if_neg Bool.false_ne_true]

theorem unsnake_lowLine {rest : List Char} (other : rest.head?.any isUppercase = false) :
    unsnake false ('_' :: rest) = '_' :: unsnake false rest := by
  rw [unsnake, if_neg fun lowLine => by simp [other] at lowLine, if_neg Bool.false_ne_true]
  rfl

/-- What is read off a table name where these characters stand behind the first of a name. -/
def readOff (chars : List Char) : List Char :=
  unsnake false (chars.flatMap snakeStep)

/-- A character is read back, unless it is a low line. -/
theorem readOff_cons {char : Char} (other : char ≠ '_') (rest : List Char) :
    readOff (char :: rest) = char :: readOff rest := by
  rw [readOff, List.flatMap_cons]
  cases upper : isUppercase char with
  | true =>
      rw [snakeStep_of_isUppercase upper]
      exact unsnake_marked upper _
  | false =>
      have plain := unsnake_plain (mt toUpper_eq_lowLine.mp other) (rest.flatMap snakeStep)
      rw [toLower_toUpper upper] at plain
      rw [snakeStep_of_not upper]
      exact plain

/-- A low line and a small letter are read as the capital of the letter. -/
theorem readOff_small {letter : Char} (small : letter.isLower = true) (rest : List Char) :
    readOff ('_' :: letter :: rest) = letter.toUpper :: readOff rest := by
  have capital := isUppercase_of_capital (isCapital_toUpper small).isUpper
  rw [readOff, List.flatMap_cons, List.flatMap_cons, snakeStep_lowLine,
    snakeStep_of_not (not_isUppercase_of_small small)]
  exact unsnake_marked capital _

/-- Ahead of anything else, a low line is read back. -/
theorem readOff_lowLine {rest : List Char} (other : ∀ next ∈ rest.head?, next.isLower = false) :
    readOff ('_' :: rest) = '_' :: readOff rest := by
  have unmarked : (rest.flatMap snakeStep).head?.any isUppercase = false := by
    cases rest with
    | nil => rfl
    | cons char rest =>
        rw [List.flatMap_cons]
        cases upper : isUppercase char with
        | true =>
            rw [snakeStep_of_isUppercase upper]
            change isUppercase '_' = false
            decide
        | false =>
            rw [snakeStep_of_not upper, toUpper_of_not_small (other char rfl)]
            exact upper
  rw [readOff, List.flatMap_cons, snakeStep_lowLine]
  exact unsnake_lowLine unmarked

theorem readOff_of_not_mem {chars : List Char} (plain : '_' ∉ chars) : readOff chars = chars := by
  induction chars with
  | nil => rfl
  | cons char rest ih =>
      obtain ⟨other, behind⟩ := not_or.mp (mt List.mem_cons.mpr plain)
      rw [readOff_cons (Ne.symm other), ih behind]

/-- Behind a first character, a name can be recast as it is read off its table name. -/
theorem eqvGen_readOff (first : Char) (before chars : List Char) :
    Relation.EqvGen Recasts (first :: (before ++ chars))
      (first :: (before ++ readOff chars)) := by
  match chars with
  | [] => exact .refl _
  | char :: rest =>
      have within : Relation.EqvGen Recasts (first :: (before ++ char :: rest))
          (first :: (before ++ char :: readOff rest)) := by
        simpa using eqvGen_readOff first (before ++ [char]) rest
      by_cases lowLine : char = '_'
      case neg =>
        rw [readOff_cons lowLine]
        exact within
      case pos =>
        subst lowLine
        match rest with
        | [] => exact .refl _
        | letter :: after =>
            cases small : letter.isLower with
            | false =>
                rw [readOff_lowLine (by simp [small])]
                exact within
            | true =>
                have recast := Relation.EqvGen.rel _ _ (Recasts.capital first before after small)
                have behind : Relation.EqvGen Recasts (first :: (before ++ letter.toUpper :: after))
                    (first :: (before ++ letter.toUpper :: readOff after)) := by
                  simpa using eqvGen_readOff first (before ++ [letter.toUpper]) after
                rw [readOff_small small]
                exact recast.trans _ _ _ behind
termination_by chars.length

theorem readName_upperSnake (first : Char) (rest : List Char) :
    readName (upperSnake (first :: rest)) = first.toUpper :: readOff rest := rfl

/-- A name can be recast as what is read off its table name. -/
theorem eqvGen_readName (chars : List Char) :
    Relation.EqvGen Recasts chars (readName (upperSnake chars)) := by
  cases chars with
  | nil => exact .refl _
  | cons first rest =>
      have behind := eqvGen_readOff first.toUpper [] rest
      rw [readName_upperSnake]
      cases small : first.isLower with
      | true => exact .trans _ _ _ (.rel _ _ (.first rest small)) behind
      | false =>
          rw [toUpper_of_not_small small] at behind ⊢
          exact behind

/-- Two names come to the same table name just where they are castings of one. -/
theorem tableName_eq_iff {first second : String} :
    tableName first = tableName second ↔ Recast first second := by
  rw [tableName, tableName, String.ofList_inj]
  exact image_eq_iff_eqvGen readName eqvGen_readName fun _ _ => upperSnake_of_recasts

/-! ## Names of types -/

/-- A name as types have them: an upper-case letter in front, and no low lines. -/
structure IsTypeName (name : String) : Prop where
  capital : ∃ first rest, name.toList = first :: rest ∧ isUppercase first = true
  plain : '_' ∉ name.toList

theorem recordName_tableName {name : String} (named : IsTypeName name) :
    recordName (tableName name) = name := by
  obtain ⟨first, rest, written, upper⟩ := named.capital
  have plain := named.plain
  rw [written] at plain
  have behind : '_' ∉ rest := fun member => plain (List.mem_cons_of_mem _ member)
  rw [recordName, tableName, String.toList_ofList, written, readName_upperSnake,
    toUpper_of_isUppercase upper, readOff_of_not_mem behind, ← written, String.ofList_toList]

/-- What the names of tables tell of the names of their records. -/
structure NamesRecords : Prop where
  /-- Names of types are told apart, in any script. -/
  injective : ∀ first second : String, IsTypeName first → IsTypeName second →
    tableName first = tableName second → first = second
  /-- They can be read off the names of their tables. -/
  read_back : ∀ name : String, IsTypeName name → recordName (tableName name) = name
  /-- Any other names are told apart but for what is lost of their low lines and capitals. -/
  same_iff : ∀ first second : String, tableName first = tableName second ↔ Recast first second
  /-- Tables that are given no names have different ones if their records do. -/
  declared : ∀ (first second : Declaration) (one other : TableDefinition),
    first.define = .ok one → second.define = .ok other →
    Setting.lastText? "name" first.options = none →
    Setting.lastText? "name" second.options = none →
    IsTypeName first.name → IsTypeName second.name →
    (one.name = other.name ↔ first.name = second.name)

theorem names_records : NamesRecords := by
  have injective (first second : String) (named : IsTypeName first)
      (namedToo : IsTypeName second) (same : tableName first = tableName second) :
      first = second := by
    rw [← recordName_tableName named, same, recordName_tableName namedToo]
  constructor
  case injective => exact injective
  case read_back => exact fun name => recordName_tableName
  case same_iff => exact fun first second => tableName_eq_iff
  case declared =>
    intro first second one other defined definedToo unnamed unnamedToo named namedToo
    obtain ⟨-, rfl⟩ := Declaration.define_eq_ok_iff.mp defined
    obtain ⟨-, rfl⟩ := Declaration.define_eq_ok_iff.mp definedToo
    rw [Declaration.catalog, Declaration.catalog, unnamed, unnamedToo]
    exact ⟨injective _ _ named namedToo, congrArg tableName⟩

/-- Runs of capitals, digits and letters outside ASCII are kept apart. -/
example : ["HTTPServer2", "HttpServer2", "ÉtéÑu"].map tableName =
    ["H_T_T_P_SERVER2", "HTTP_SERVER2", "ÉTé_ÑU"] := by decide +kernel

example : tableName "A_b" = tableName "AB" := by decide

end SqlSelect.Naming
