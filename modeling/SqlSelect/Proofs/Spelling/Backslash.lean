import SqlSelect.Proofs.Spelling.Literal

/-!
# Texts where a backslash escapes

MySQL reads a text literal with one rule more than the standard: a backslash and the
character behind it are one character of the text.  Its dialect writes literals by the
standard all the same, with quotes doubled and backslashes as they are.

So only a text without a backslash is read back.  Any other text is read as another one if
its backslashes, taken from the left with the characters behind them, leave every quote
alone, and else the literal does not end at its own closing quote.
-/

namespace SqlSelect

namespace Backslash

section Reading

variable (meaning : Char → Char)

/-- Read a text behind its opening quote.  A backslash and the character behind it are
what that character means there, a quote written twice is part of the text, and one that
stands alone ends it. -/
def scan? : List Char → Option (List Char × List Char)
  | [] => none
  | '\\' :: char :: rest => (scan? rest).map (Quoted.prepend (meaning char))
  | '\'' :: '\'' :: rest => (scan? rest).map (Quoted.prepend '\'')
  | '\'' :: rest => some ([], rest)
  | char :: rest => (scan? rest).map (Quoted.prepend char)

/-- Read a text literal from the front of a text, and what stands behind it. -/
def read? : List Char → Option (String × List Char)
  | '\'' :: rest => do
    let (content, rest) ← scan? meaning rest
    return (String.ofList content, rest)
  | _ => none

/-- A text as it is read back, where its literal ends at its own closing quote. -/
def misread : List Char → List Char
  | [] => []
  | '\\' :: char :: rest => meaning char :: misread rest
  | char :: rest => char :: misread rest

end Reading

/-- No backslash stands ahead of a quote or at the end, but for those that an earlier one
takes in. -/
def isContained : List Char → Bool
  | [] => true
  | ['\\'] => false
  | '\\' :: char :: rest => char != '\'' && isContained rest
  | _ :: rest => isContained rest

variable {meaning : Char → Char} {text rest : List Char}

/-! ## One character at a time -/

section Steps

variable {char : Char}

@[simp] theorem scan?_backslash (char : Char) (rest : List Char) :
    scan? meaning ('\\' :: char :: rest) =
      (scan? meaning rest).map (Quoted.prepend (meaning char)) := by
  rw [scan?]

@[simp] theorem scan?_doubled (rest : List Char) :
    scan? meaning ('\'' :: '\'' :: rest) = (scan? meaning rest).map (Quoted.prepend '\'') := by
  rw [scan?]

theorem scan?_quote (ends : '\'' ∉ rest.head?) :
    scan? meaning ('\'' :: rest) = some ([], rest) := by
  rw [scan?]
  rintro others rfl
  exact ends rfl

theorem escape_cons_of_ne (unquoted : char ≠ '\'') (rest : List Char) :
    Quoted.escape (char :: rest) = char :: Quoted.escape rest := by
  rw [Quoted.escape]
  exact unquoted

/-- A character other than a backslash is read as it was written. -/
theorem scan?_escape_cons (plain : char ≠ '\\') (text rest : List Char) :
    scan? meaning (Quoted.escape (char :: text) ++ rest) =
      (scan? meaning (Quoted.escape text ++ rest)).map (Quoted.prepend char) := by
  by_cases quote : char = '\''
  · subst quote
    exact scan?_doubled _
  · rw [escape_cons_of_ne quote, List.cons_append, scan?]
    · rintro _ _ rfl
      exact absurd rfl plain
    · rintro _ rfl
      exact absurd rfl quote
    · rintro rfl
      exact absurd rfl quote

/-- What is read with one more character ahead ends where it did without. -/
theorem exists_of_prepend {read : Option (List Char × List Char)} {content behind : List Char}
    (scanned : read.map (Quoted.prepend char) = some (content, behind)) :
    ∃ inner, read = some (inner, behind) := by
  obtain ⟨⟨inner, left⟩, known, same⟩ := Option.map_eq_some_iff.mp scanned
  cases same
  exact ⟨inner, known⟩

theorem misread_cons (plain : char ≠ '\\') (rest : List Char) :
    misread meaning (char :: rest) = char :: misread meaning rest := by
  rw [misread]
  rintro _ _ rfl
  exact absurd rfl plain

end Steps

/-! ## Where the literal ends -/

theorem ne_backslash_of_rest {char : Char} (notLast : char = '\\' → rest = [] → False)
    (notAhead : ∀ next more, char = '\\' → rest = next :: more → False) : char ≠ '\\' := by
  rintro rfl
  cases rest with
  | nil => exact notLast rfl rfl
  | cons next more => exact notAhead next more rfl rfl

/-- What is left behind a text is shorter than all of it. -/
theorem length_lt_of_scan? {content behind : List Char}
    (scanned : scan? meaning text = some (content, behind)) : behind.length < text.length := by
  fun_induction scan? meaning text generalizing content behind with
  | case1 => cases scanned
  | case2 char rest ih =>
      obtain ⟨inner, known⟩ := exists_of_prepend scanned
      have shorter := ih known
      simp only [List.length_cons]
      omega
  | case3 rest ih =>
      obtain ⟨inner, known⟩ := exists_of_prepend scanned
      have shorter := ih known
      simp only [List.length_cons]
      omega
  | case4 rest other =>
      cases scanned
      simp
  | case5 char rest _ _ _ ih =>
      obtain ⟨inner, known⟩ := exists_of_prepend scanned
      have shorter := ih known
      simp only [List.length_cons]
      omega

/-- Behind the end of a text nothing is left that was there before it. -/
theorem scan?_ne_of_suffix (content before : List Char) :
    scan? meaning rest ≠ some (content, before ++ rest) := by
  intro scanned
  have shorter := length_lt_of_scan? scanned
  simp only [List.length_append] at shorter
  omega

/-- A quote that an escaped one leaves alone is taken for the end, or with a further quote
for part of the text, so that the closing quote is missed. -/
theorem scan?_misaligned (text content : List Char) :
    scan? meaning ('\'' :: (Quoted.escape text ++ '\'' :: rest)) ≠ some (content, rest) := by
  intro scanned
  fun_induction Quoted.escape text generalizing content with
  | case1 =>
      obtain ⟨read, known⟩ := exists_of_prepend scanned
      exact scan?_ne_of_suffix read [] known
  | case2 others ih =>
      obtain ⟨read, known⟩ := exists_of_prepend scanned
      exact ih read known
  | case3 char others other ih =>
      have unquoted : '\'' ∉ (char :: (Quoted.escape others ++ '\'' :: rest)).head? := by
        simpa using other
      rw [List.cons_append, scan?_quote unquoted, Option.some.injEq, Prod.mk.injEq] at scanned
      have length := congrArg List.length scanned.2
      simp only [List.length_append, List.length_cons] at length
      omega

/-- Where the backslashes leave every quote alone, the literal ends at its own closing
quote. -/
theorem scan?_of_isContained (contained : isContained text = true) (ends : '\'' ∉ rest.head?) :
    scan? meaning (Quoted.escape text ++ '\'' :: rest) = some (misread meaning text, rest) := by
  fun_induction isContained text with
  | case1 => exact scan?_quote ends
  | case2 => cases contained
  | case3 char others ih =>
      simp only [Bool.and_eq_true, bne_iff_ne, ne_eq] at contained
      rw [escape_cons_of_ne (by decide), escape_cons_of_ne contained.1, List.cons_append,
        List.cons_append, scan?_backslash, ih contained.2]
      rfl
  | case4 char others notLast notAhead ih =>
      have plain := ne_backslash_of_rest notLast notAhead
      rw [scan?_escape_cons plain, ih contained, misread_cons plain]
      rfl

/-- Else it does not. -/
theorem scan?_of_not_isContained (contained : isContained text = false) (content : List Char) :
    scan? meaning (Quoted.escape text ++ '\'' :: rest) ≠ some (content, rest) := by
  intro scanned
  fun_induction isContained text generalizing content with
  | case1 => cases contained
  | case2 =>
      obtain ⟨read, known⟩ := exists_of_prepend scanned
      exact scan?_ne_of_suffix read [] known
  | case3 char others ih =>
      rw [escape_cons_of_ne (by decide)] at scanned
      by_cases quote : char = '\''
      · subst quote
        obtain ⟨read, known⟩ := exists_of_prepend scanned
        exact scan?_misaligned others read known
      · rw [escape_cons_of_ne quote] at scanned
        obtain ⟨read, known⟩ := exists_of_prepend scanned
        exact ih (by simpa [quote] using contained) read known
  | case4 char others notLast notAhead ih =>
      have plain := ne_backslash_of_rest notLast notAhead
      rw [scan?_escape_cons plain] at scanned
      obtain ⟨read, known⟩ := exists_of_prepend scanned
      exact ih contained read known

/-! ## What is read -/

theorem length_misread_le (meaning : Char → Char) (text : List Char) :
    (misread meaning text).length ≤ text.length := by
  fun_induction misread meaning text with
  | case1 => exact Nat.le_refl 0
  | case2 char others ih =>
      simp only [List.length_cons]
      omega
  | case3 char others _ ih =>
      simp only [List.length_cons]
      omega

theorem isContained_of_not_mem (plain : '\\' ∉ text) : isContained text = true := by
  fun_induction isContained text with
  | case1 => rfl
  | case2 => exact (plain List.mem_cons_self).elim
  | case3 char others ih => exact (plain List.mem_cons_self).elim
  | case4 char others _ _ ih => exact ih fun member => plain (List.mem_cons_of_mem char member)

/-- A text that is read to its end is read back only if nothing in it escapes: two
characters become one. -/
theorem misread_eq_iff (contained : isContained text = true) :
    misread meaning text = text ↔ '\\' ∉ text := by
  fun_induction isContained text with
  | case1 => simp [misread]
  | case2 => cases contained
  | case3 char others ih =>
      constructor
      · intro same
        have length := congrArg List.length same
        have bound := length_misread_le meaning others
        simp only [misread, List.length_cons] at length
        omega
      · intro plain
        exact (plain List.mem_cons_self).elim
  | case4 char others notLast notAhead ih =>
      have plain := ne_backslash_of_rest notLast notAhead
      rw [misread_cons plain, List.cons.injEq, ih contained, List.mem_cons, not_or]
      exact and_congr_left fun _ => ⟨fun _ => plain.symm, fun _ => rfl⟩

theorem read?_eq_some_iff (content : String) {read : String} (ends : '\'' ∉ rest.head?) :
    read? meaning ((Quoted.literal content).toList ++ rest) = some (read, rest) ↔
      isContained content.toList = true ∧
        read = String.ofList (misread meaning content.toList) := by
  have opened : (Quoted.literal content).toList ++ rest =
      '\'' :: (Quoted.escape content.toList ++ '\'' :: rest) := by
    simp [Quoted.literal]
  rw [opened, read?]
  cases contained : isContained content.toList with
  | true =>
      rw [scan?_of_isContained contained ends]
      simp [eq_comm]
  | false =>
      simp only [Bool.false_eq_true, false_and, iff_false]
      intro known
      cases scanned : scan? meaning (Quoted.escape content.toList ++ '\'' :: rest) with
      | none =>
          rw [scanned] at known
          cases known
      | some found =>
          rw [scanned] at known
          cases known
          exact scan?_of_not_isContained contained found.1 scanned

end Backslash

/-- How MySQL reads the text literals of its dialect, ahead of anything but a further
quote: as the texts they are written for just if there is no backslash in them, and to
their ends just if the backslashes leave every quote alone. -/
theorem Dialect.mysql_reads_iff (meaning : Char → Char) (content : String) {rest : List Char}
    (ends : '\'' ∉ rest.head?) :
    (Backslash.read? meaning ((Dialect.mysql.literal (.text content)).toList ++ rest) =
        some (content, rest) ↔ '\\' ∉ content.toList) ∧
    ((∃ read, Backslash.read? meaning
        ((Dialect.mysql.literal (.text content)).toList ++ rest) = some (read, rest)) ↔
      Backslash.isContained content.toList = true) := by
  have standard : Dialect.mysql.literal (.text content) = Quoted.literal content := rfl
  simp only [standard, Backslash.read?_eq_some_iff content ends]
  constructor
  · constructor
    · rintro ⟨contained, same⟩
      have characters := congrArg String.toList same
      rw [String.toList_ofList] at characters
      exact (Backslash.misread_eq_iff contained).mp characters.symm
    · intro plain
      have contained := Backslash.isContained_of_not_mem plain
      refine ⟨contained, ?_⟩
      rw [(Backslash.misread_eq_iff contained).mpr plain, String.ofList_toList]
  · simp

namespace Sample

theorem plain_reads :
    Backslash.read? id ((Dialect.mysql.literal (.text "it's")).toList ++ ", 1".toList) =
      some ("it's", ", 1".toList) :=
  (Dialect.mysql_reads_iff id "it's" (by decide)).1.mpr (by decide)

/-- A backslash at the end of a text takes in the closing quote. -/
theorem backslash_misread :
    ¬ ∀ (content : String) (rest : List Char), '\'' ∉ rest.head? →
      Backslash.read? id ((Dialect.mysql.literal (.text content)).toList ++ rest) =
        some (content, rest) := by
  intro claimed
  have read := claimed "\\" [] (by decide)
  revert read
  decide

example : Backslash.read? id
      ((Dialect.mysql.literal (.text "\\' or true -- ")).toList ++ " limit 5".toList) =
    some ("'", " or true -- ' limit 5".toList) := by decide

end Sample

end SqlSelect
