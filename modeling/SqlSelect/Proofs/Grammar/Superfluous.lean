import SqlSelect.Proofs.Grammar.Grouping

/-!
# Parentheses that could be left out

An expression is read as what it is, and without any one pair of the parentheses that its
precedences ask for it is not, with one exception.  A negative number without a literal is
handed over as an argument, so that it needs no parentheses behind a minus sign; it counts as
a negation all the same, and is put into them.
-/

namespace SqlSelect

namespace Lexeme

variable {dialect : Dialect} {lexeme : Lexeme} {body rest : List Lexeme} {value : Value}

theorem tokens_ne_nil (renders : Writable dialect (lexeme :: rest)) :
    tokens dialect [lexeme] ≠ [] := by
  rw [tokens, List.flatMap_singleton]
  apply cut_ne_nil
  rintro error rfl
  cases (writable_cons.mp renders).1

/-- Only an argument is written as a placeholder and nothing else. -/
theorem eq_argument (renders : Writable dialect body)
    (same : tokens dialect body = [.place value]) : body = [.argument value] := by
  cases body with
  | nil => cases same
  | cons lexeme rest =>
      have restRenders := (writable_cons.mp renders).2
      rw [← List.singleton_append, tokens_append] at same
      obtain ⟨none, _⟩ | ⟨one, none⟩ := List.append_eq_singleton_iff.mp same
      · exact (tokens_ne_nil renders none).elim
      · cases rest with
        | cons second others =>
            rw [← List.singleton_append, tokens_append, List.append_eq_nil_iff] at none
            exact (tokens_ne_nil restRenders none.1).elim
        | nil =>
            cases lexeme with
            | argument found => simpa [cut] using one
            | literal found =>
                cases negative : found.isNegative && found.hasLiteral <;>
                  simp [cut, Dialect.literalTokens, negative] at one
            | between negated | like negated | isIn negated | isNull negated
            | «exists» negated =>
                cases negated <;> cases one
            | orderBy following => cases following <;> simp [cut] at one
            | fault _ => cases one
            | _ => simp [cut] at one

end Lexeme

namespace Expr

variable {database : Database} {expr : Expr}

/-- A pair of the parentheses that precedences ask for stands around some symbols, and without
it the expression would still be read. -/
def Superfluous (database : Database) (expr : Expr) (body : List Lexeme) : Prop :=
  ∃ before after,
    expr.lexemes database = before ++ .opening true :: (body ++ .closing true :: after) ∧
      Token.Paired (Lexeme.tokens database.dialect body) ∧
        Reads database.dialect .declared .or
          (Lexeme.tokens database.dialect (before ++ body ++ after))
          (expr.written database)

/-- What an expression is written with parentheses for, as far as they are needed. -/
theorem suits_sparing (database : Database) (expr : Expr) :
    expr.Suits database (Phrase.Fits database.dialect .declared)
      (Sparing (Phrase.Fits database.dialect .declared) fun value =>
        value.isNegativeArgument = true ∧
          expr.Contains database.dialect.windowClauses (.negate (.literal value))) := by
  refine ⟨Phrase.fits_anywhere _ _, fun _ => Nat.le_of_ble_eq_true rfl, ?_⟩
  intro node contains place child member
  apply (suits_declared member).mono
  intro needed fits
  obtain ⟨above, value, ⟨negative, rfl⟩, same⟩ := needed fits
  exact ⟨above, value, ⟨negative, contains⟩, same⟩

/-- What is derived from the frame of a phrase is read as the phrase. -/
theorem reads_of_derives {groups : Place → Phrase → Prop} {phrase : Phrase} {tokens : List Token}
    (derives : Derives database.dialect (Phrase.Fits database.dialect .declared) groups
      (phrase.frame database.dialect) tokens) :
    Reads database.dialect .declared .or tokens phrase :=
  reads_iff_readsAt.mpr
    (.of_frame (Nat.zero_le _) (derives.mono (fun _ _ fits => fits) fun _ _ _ => trivial))

/-- An expression is read as what is written of it. -/
theorem reads_written (renders : Lexeme.Writable database.dialect (expr.lexemes database)) :
    Reads database.dialect .declared .or (expr.tokens database) (expr.written database) :=
  reads_of_derives ((expr.suits_sparing database).derives renders)

theorem lexemes_negate_argument {value : Value} (negative : value.isNegativeArgument = true) :
    (negate (literal value)).lexemes database =
      [.minus, .opening true, .argument value, .closing true] := by
  rw [Value.isNegativeArgument, Bool.and_eq_true, Bool.not_eq_true'] at negative
  simp [lexemes, placed, needsGroup, precedence, negative.1, negative.2, Lexeme.grouped]

/-- Behind a minus sign, an argument needs no parentheses. -/
theorem derives_negate_argument {groups : Place → Phrase → Prop} {value : Value}
    (negative : value.isNegativeArgument = true) :
    Derives database.dialect (Phrase.Fits database.dialect .declared) groups
      (((negate (literal value)).written database).frame database.dialect)
      (Lexeme.tokens database.dialect [.minus, .argument value]) := by
  have written : (negate (literal value)).written database = .negate (.place value) :=
    congrArg Phrase.negate (written_negativeArgument negative)
  rw [written]
  exact .symbol _ (.expand (Nat.le_of_ble_eq_true rfl) (.symbol _ .nil))

/-- The parentheses that could be left out stand around negative numbers without a literal, each
behind a minus sign. -/
theorem superfluous_iff (renders : Lexeme.Writable database.dialect (expr.lexemes database))
    {body : List Lexeme} :
    expr.Superfluous database body ↔ ∃ value, value.isNegativeArgument = true ∧
      expr.Contains database.dialect.windowClauses (.negate (.literal value)) ∧
        body = [.argument value] := by
  constructor
  · rintro ⟨before, after, whole, paired, reads⟩
    have bodyRenders : Lexeme.Writable database.dialect body := by
      rw [whole, Lexeme.writable_append, Lexeme.writable_cons, Lexeme.writable_append] at renders
      exact renders.2.2.1
    have derives := (expr.suits_sparing database).derives renders
    have tokens : expr.tokens database = Lexeme.tokens database.dialect before ++
        .opening :: (Lexeme.tokens database.dialect body ++
          .closing :: Lexeme.tokens database.dialect after) := by
      simp [Expr.tokens, whole, Lexeme.cut]
    rw [tokens, ← List.append_nil (Phrase.frame _ _)] at derives
    rw [reads_iff_readsAt, Lexeme.tokens_append, Lexeme.tokens_append] at reads
    have tidy : Frame.Tidy true [.part (.atLeast .or) (expr.written database)] :=
      ⟨fun _ => rfl, trivial⟩
    obtain ⟨value, ⟨negative, contains⟩, same⟩ := Derives.around_place (Phrase.fits_anywhere _ _)
      tidy paired (.expand (Nat.zero_le _) derives) reads
    exact ⟨value, negative, contains, Lexeme.eq_argument bodyRenders same⟩
  · rintro ⟨value, negative, contains, rfl⟩
    obtain ⟨before, after, whole, replace⟩ :=
      (expr.suits_sparing database).replace renders contains
    refine ⟨before ++ [.minus], after, ?_, Token.paired_place value, ?_⟩
    · rw [whole, lexemes_negate_argument negative]
      simp
    · have shorter := reads_of_derives (replace _ (derives_negate_argument negative))
      simpa using shorter

/-- An expression is read as what is written of it, and without any pair of the parentheses that
its precedences ask for it is not, but for those around a negative number that has no literal,
behind a minus sign. -/
theorem parentheses_needed
    (renders : Lexeme.Writable database.dialect (expr.lexemes database)) :
    Reads database.dialect .declared .or (expr.tokens database) (expr.written database) ∧
      ∀ body, expr.Superfluous database body ↔ ∃ value, value.isNegativeArgument = true ∧
        expr.Contains database.dialect.windowClauses (.negate (.literal value)) ∧
          body = [.argument value] :=
  ⟨reads_written renders, fun _ => superfluous_iff renders⟩

end Expr

namespace Sample

/-- The negative infinity, which has no literal. -/
def lowest : Value := .float ⟨0xfff0000000000000⟩

/-- A sum that is multiplied by something, which needs parentheses, and a minus sign ahead of a
number without a literal. -/
def scaled : Expr :=
  .binary .multiply
    (.binary .add (.argument (.integer 1)) (.argument (.integer 2)))
    (.negate (.literal lowest))

theorem scaled_parentheses :
    Lexeme.Writable mysql.dialect (scaled.lexemes mysql) ∧
      Reads mysql.dialect .declared .or (scaled.tokens mysql) (scaled.written mysql) ∧
        ∀ body, scaled.Superfluous mysql body ↔ ∃ value, value.isNegativeArgument = true ∧
          scaled.Contains mysql.dialect.windowClauses (.negate (.literal value)) ∧
            body = [.argument value] := by
  have renders : Lexeme.Writable mysql.dialect (scaled.lexemes mysql) := by rfl
  exact ⟨renders, Expr.parentheses_needed renders⟩

/-- In `-(?)` the parentheses could be left out. -/
theorem lowest_superfluous :
    (Expr.negate (.literal lowest)).Superfluous mysql [.argument lowest] := by
  have whole : (Expr.negate (.literal lowest)).lexemes mysql =
      [.minus, .opening true, .argument lowest, .closing true] := by rfl
  have reads : Reads mysql.dialect .declared .or [.operator .subtract, .place lowest]
      (.negate (.place lowest)) :=
    (Reads.negate (.place lowest)).loosen (by decide)
  exact ⟨[.minus], [], whole, Token.paired_place lowest, reads⟩

end Sample

end SqlSelect
