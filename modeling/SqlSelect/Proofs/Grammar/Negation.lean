import SqlSelect.Proofs.Grammar.Superfluous

/-!
# NOT as in standard SQL

Parentheses are put as if NOT were to bind like a minus sign.  Where it binds as in standard
SQL, an expression is still read as what it is, unless a NOT is an operand of something that
binds more tightly than that: then it takes in all that follows.
-/

namespace SqlSelect

/-- What is derived from a frame derives something from the frame of each part, which fits its
place or is put in parentheses there. -/
theorem Derives.exists_part {dialect : Dialect} {fits groups : Place → Phrase → Prop}
    {place : Place} {phrase : Phrase} {frame : Frame} {tokens : List Token}
    (derives : Derives dialect fits groups frame tokens) (member : .part place phrase ∈ frame) :
    (fits place phrase ∨ groups place phrase) ∧
      ∃ own, Derives dialect fits groups (phrase.frame dialect) own := by
  induction derives generalizing place with
  | nil => cases member
  | symbol token _ ih =>
      cases member with
      | tail _ member => exact ih member
  | expand fit derives ih =>
      cases member with
      | head =>
          obtain ⟨own, _, _, ownDerives, _⟩ := derives.split
          exact ⟨.inl fit, own, ownDerives⟩
      | tail _ member => exact ih (List.mem_append_right _ member)
  | group grouped _ ih =>
      cases member with
      | head => exact ⟨.inr grouped, (ih List.mem_cons_self).2⟩
      | tail _ member => exact ih (List.mem_cons_of_mem _ (List.mem_cons_of_mem _ member))

namespace Expr

/-- The operands of what binds more tightly than NOT does in standard SQL, but for that of a minus
sign: there a NOT stands in parentheses anyway. -/
def tightOperands (dialect : Dialect) : Expr → List Expr
  | .binary operator left right =>
    if operator = .and ∨ operator = .or ∨
        operator = .concat ∧ dialect.concatOperator? = none then []
    else [left, right]
  | .between _ operand low high => [operand, low, high]
  | .like _ operand pattern => [operand, pattern]
  | .inList _ operand _ | .inQuery _ operand _ | .isNull _ operand => [operand]
  | _ => []

variable {database : Database} {expr node child : Expr} {place : Place}

theorem mem_tightOperands_iff :
    child ∈ node.tightOperands database.dialect ↔
      ∃ place, .part place child ∈ node.draft database ∧ place ≠ .above .unary ∧
        NotLevel.standard.rank < place.rank .standard := by
  cases node with
  | column reference => cases reference <;> simp [tightOperands, draft]
  | binary operator left right =>
      rw [tightOperands, draft]
      by_cases called : operator = .concat ∧ database.dialect.concatOperator? = none
      · simp [called, or_and_right, exists_or, Place.rank]
      · rw [if_neg called]
        cases operator with
        | concat =>
            have known : database.dialect.concatOperator? ≠ none := fun none => called ⟨rfl, none⟩
            simp [known, or_and_right, exists_or, Place.rank, BinaryOperator.precedence,
              Precedence.level, NotLevel.rank, NotLevel.precedence]
        | _ =>
            simp [or_and_right, exists_or, Place.rank, BinaryOperator.precedence,
              Precedence.level, NotLevel.rank, NotLevel.precedence]
  | call function distinct arguments =>
      cases distinct <;> simp [tightOperands, draft, Place.rank]
  | window function arguments partition order =>
      rw [draft]
      split
      · simp [tightOperands]
      · cases database.dialect.supportsPartition <;>
          cases database.dialect.supportsWindowOrder <;>
            simp [tightOperands, or_and_right, exists_or, Place.rank]
  | _ =>
      simp [tightOperands, draft, or_and_right, exists_or, Place.rank, Precedence.level,
        NotLevel.rank, NotLevel.precedence]

/-- The phrase of a part is a part of the frame. -/
theorem part_mem_frame (renders : Lexeme.Writable database.dialect (node.lexemes database))
    (member : .part place child ∈ node.draft database) :
    .part place (child.written database) ∈ (node.written database).frame database.dialect := by
  have noLiteral (value : Value) (same : node = .literal value) :
      (value.isNegative && value.hasLiteral) = false := by
    subst same
    simp [draft] at member
  rw [frame_eq_draft renders noLiteral]
  exact List.mem_flatMap.mpr ⟨_, member, List.mem_singleton_self _⟩

theorem renders_of_contains (renders : Lexeme.Writable database.dialect (expr.lexemes database))
    (contains : expr.Contains database.dialect.windowClauses node) :
    Lexeme.Writable database.dialect (node.lexemes database) := by
  induction contains with
  | self => exact renders
  | part _ member ih =>
      obtain ⟨_, member⟩ := (mem_parts_iff ih).mp member
      exact renders_of_mem_draft ih member

/-- Of a derivation of an expression, there is one of all that it contains. -/
theorem exists_of_contains {fits groups : Place → Phrase → Prop} {tokens : List Token}
    (renders : Lexeme.Writable database.dialect (expr.lexemes database))
    (contains : expr.Contains database.dialect.windowClauses node)
    (derives : Derives database.dialect fits groups
      ((expr.written database).frame database.dialect) tokens) :
    ∃ own, Derives database.dialect fits groups
      ((node.written database).frame database.dialect) own := by
  induction contains with
  | self => exact ⟨tokens, derives⟩
  | part outer member ih =>
      obtain ⟨own, outerDerives⟩ := ih
      have outerRenders := renders_of_contains renders outer
      obtain ⟨_, member⟩ := (mem_parts_iff outerRenders).mp member
      exact (outerDerives.exists_part (part_mem_frame outerRenders member)).2

/-- No operand stands where a predicate would just fit. -/
theorem place_ne_predicate (member : .part place child ∈ node.draft database) :
    place ≠ .atLeast .predicate := by
  revert place child
  cases node with
  | column reference => cases reference <;> simp [draft]
  | binary operator left right =>
      rw [draft]
      split
      · simp [or_imp, forall_and]
      · cases operator <;> simp [BinaryOperator.precedence, or_imp, forall_and]
  | window function arguments partition order =>
      rw [draft]
      split
      · simp
      · cases database.dialect.supportsPartition <;>
          cases database.dialect.supportsWindowOrder <;> simp +contextual [or_imp]
  | call function distinct arguments => cases distinct <;> simp +contextual [draft]
  | _ => simp +contextual [draft, or_imp]

/-- Where an EXISTS fits as declared it fits in standard SQL, too. -/
theorem exists_fits_standard {dialect : Dialect} {pieces : List Piece}
    (other : place ≠ .atLeast .predicate)
    (fits : (Phrase.exists false pieces).Fits dialect .declared place) :
    (Phrase.exists false pieces).Fits dialect .standard place := by
  have bound : place.rank .declared ≤ 2 * Precedence.predicate.level := fits
  cases place with
  | anywhere => exact Nat.zero_le _
  | atLeast precedence =>
      cases precedence with
      | predicate => exact (other rfl).elim
      | or | and => exact Nat.le_of_ble_eq_true rfl
      | _ => exact absurd bound (by decide)
  | above precedence =>
      cases precedence with
      | or | and => exact Nat.le_of_ble_eq_true rfl
      | _ => exact absurd bound (by decide)
  | negated => exact absurd bound (by decide)

/-- A phrase is a NOT only if its expression is one. -/
theorem written_ne_not (other : ∀ operand, child ≠ .not operand) (operand : Phrase) :
    child.written database ≠ .not operand := by
  cases child with
  | not operand => exact (other operand rfl).elim
  | literal value =>
      simp only [written, trimmed, phrase, Dialect.literalPhrase]
      split
      · intro same
        cases same
      · split <;> intro same <;> cases same
  | _ =>
      intro same
      cases same

/-- Where no NOT is an operand of what binds more tightly, what is written fits its place in
standard SQL, too. -/
theorem suits_standard (loose : ∀ node, expr.Contains database.dialect.windowClauses node →
      ∀ operand, .not operand ∉ node.tightOperands database.dialect) :
    expr.Suits database (Phrase.Fits database.dialect .standard) (fun _ _ => True) := by
  refine ⟨Phrase.fits_anywhere _ _, fun _ => Nat.le_of_ble_eq_true rfl, ?_⟩
  intro node contains place child member
  have declared := suits_declared member
  rw [Place.Suits] at declared ⊢
  split
  case isTrue grouped => trivial
  case isFalse free =>
    rw [if_neg free] at declared
    by_cases negation : ∃ operand, child = .not operand
    · obtain ⟨operand, rfl⟩ := negation
      rw [Phrase.Fits]
      by_contra unfit
      have above : place ≠ .above .unary := by
        rintro rfl
        exact Nat.not_succ_le_self _ declared
      exact loose node contains operand
        (mem_tightOperands_iff.mpr ⟨place, member, above, Nat.not_le.mp unfit⟩)
    · by_cases alone : ∃ pieces, child.written database = .exists false pieces
      · obtain ⟨pieces, same⟩ := alone
        rw [same] at declared ⊢
        exact exists_fits_standard (place_ne_predicate member) declared
      · have other := @written_ne_not database child (not_exists.mp negation)
        rw [Phrase.Fits, Phrase.rank_standard other (not_exists.mp alone)]
        exact Nat.le_trans place.rank_standard_le declared

/-- An expression is read as what it is in standard SQL just if no NOT is an operand of what binds
more tightly.  Whatever it is read as there, it is read as nothing else. -/
theorem reads_standard_iff (renders : Lexeme.Writable database.dialect (expr.lexemes database)) :
    (ReadsAt database.dialect .standard .anywhere (expr.tokens database)
        (expr.written database) ↔
      ∀ node, expr.Contains database.dialect.windowClauses node →
        ∀ operand, .not operand ∉ node.tightOperands database.dialect) ∧
    ∀ phrase other,
      ReadsAt database.dialect .standard .anywhere (expr.tokens database) phrase →
        ReadsAt database.dialect .standard .anywhere (expr.tokens database) other →
          phrase = other := by
  refine ⟨?_, fun phrase other reads otherReads => reads.functional otherReads⟩
  constructor
  · intro reads node contains operand member
    have derives := (expr.suits_sparing database).derives renders
    rw [← List.append_nil (Phrase.frame _ _)] at derives
    -- What is written and what is read are one derivation.
    have both := Derives.agree (.expand (Phrase.fits_anywhere _ _ _) derives) reads
    obtain ⟨_, own, inside⟩ := both.exists_part List.mem_cons_self
    obtain ⟨_, nodeDerives⟩ := exists_of_contains renders contains inside
    obtain ⟨place, known, above, tight⟩ := mem_tightOperands_iff.mp member
    have nodeRenders := renders_of_contains renders contains
    obtain ⟨⟨_, fits⟩ | ⟨needed, _⟩, _⟩ :=
      nodeDerives.exists_part (part_mem_frame nodeRenders known)
    · exact Nat.not_le.mpr tight fits
    · rcases place_of_mem_draft known with ⟨_, same⟩ | low
      · exact above same
      · exact above (needed low).1
  · intro loose
    have derives := (suits_standard loose).derives renders
    exact .of_frame (Phrase.fits_anywhere _ _ _) derives

end Expr

namespace Sample

/-- The negation of one condition, compared with another. -/
def compared : Expr :=
  .binary .equal (.not (.argument (.bool true))) (.argument (.bool false))

theorem compared_standard :
    Lexeme.Writable mysql.dialect (compared.lexemes mysql) ∧
      (ReadsAt mysql.dialect .standard .anywhere (compared.tokens mysql)
          (compared.written mysql) ↔
        ∀ node, compared.Contains mysql.dialect.windowClauses node →
          ∀ operand, .not operand ∉ node.tightOperands mysql.dialect) ∧
      ∀ phrase other,
        ReadsAt mysql.dialect .standard .anywhere (compared.tokens mysql) phrase →
          ReadsAt mysql.dialect .standard .anywhere (compared.tokens mysql) other →
            phrase = other := by
  have renders : Lexeme.Writable mysql.dialect (compared.lexemes mysql) := by rfl
  exact ⟨renders, Expr.reads_standard_iff renders⟩

/-- What is written as `not ? = ?` is read as the negation of a comparison in standard SQL. -/
theorem compared_misread :
    ReadsAt mysql.dialect .standard .anywhere (compared.tokens mysql)
        (.not (.binary .equal (.place (.bool true)) (.place (.bool false)))) ∧
      ¬ ReadsAt mysql.dialect .standard .anywhere (compared.tokens mysql)
        (compared.written mysql) := by
  have tokens : compared.tokens mysql = [.keyword .not, .place (.bool true),
      .operator .equal, .place (.bool false)] := by rfl
  rw [tokens]
  constructor
  · have left : (Phrase.place (.bool true)).Fits mysql.dialect .standard
        (.atLeast .comparison) := Nat.le_of_ble_eq_true rfl
    have right : (Phrase.place (.bool false)).Fits mysql.dialect .standard
        (.above .comparison) := Nat.le_of_ble_eq_true rfl
    have comparison : (Phrase.binary .equal (.place (.bool true)) (.place (.bool false))).Fits
        mysql.dialect .standard .negated := Nat.le_of_ble_eq_true rfl
    exact .expand (Nat.le_of_ble_eq_true rfl) (.symbol _ (.expand comparison
      (.expand left (.symbol _ (.symbol _ (.expand right (.symbol _ .nil)))))))
  · intro reads
    -- Ahead of the comparison, the NOT would have to fit or to stand in parentheses.
    rcases reads with _ | _ | ⟨_, _ | _ | ⟨fits, _⟩⟩
    exact absurd (Nat.ble_eq_true_of_le fits) Bool.false_ne_true

end Sample

end SqlSelect
