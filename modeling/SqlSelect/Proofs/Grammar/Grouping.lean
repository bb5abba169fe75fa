import SqlSelect.Proofs.Grammar.Pairs
import SqlSelect.Proofs.Grammar.Written

/-!
# Where an expression is put in parentheses

A child stands in parentheses where its place asks for more than its precedence.  With NOT at
the level of a minus sign, these are the places that its phrase does not fit, but for a
negative number without a literal: it is handed over as an argument, and still counts as a
negation behind a minus sign.
-/

namespace SqlSelect

/-! ## Parts and their places -/

section Parts

variable {database : Database} {place : Place} {child : Expr}

@[simp] theorem Draft.part_mem_enclosed {body : Draft} :
    .part place child ∈ enclosed body ↔ .part place child ∈ body := by
  simp [enclosed]

@[simp] theorem Draft.part_mem_clause {head : Lexeme} {items : List Draft} :
    .part place child ∈ clause head items ↔ ∃ item ∈ items, .part place child ∈ item := by
  cases items with
  | nil => simp [clause]
  | cons item rest =>
      rw [← Item.part_mem_separated Lexeme.comma]
      simp [clause]

namespace Expr

@[simp] theorem part_mem_orderDraft {item : OrderItem Expr} :
    .part place child ∈ orderDraft item ↔ place = .anywhere ∧ item.expr = child := by
  cases found : item.descending <;> simp [orderDraft, found, eq_comm]

@[simp] theorem part_mem_branchDraft {branch : Branch Expr} :
    .part place child ∈ branchDraft branch ↔ place = .anywhere ∧ child ∈ branch.both := by
  simp [branchDraft, Branch.both, and_or_left]

@[simp] theorem part_mem_otherwiseDraft {otherwise : Option Expr} :
    .part place child ∈ otherwiseDraft otherwise ↔ place = .anywhere ∧ child ∈ otherwise := by
  cases otherwise <;> simp [otherwiseDraft, eq_comm]

/-- The parts of an expression that are written are those in its draft. -/
theorem mem_parts_iff {expr : Expr}
    (renders : Lexeme.Writable database.dialect (expr.lexemes database)) :
    child ∈ expr.parts database.dialect.windowClauses ↔
      ∃ place, .part place child ∈ expr.draft database := by
  cases expr with
  | column reference => cases reference <;> simp [parts, draft]
  | binary operator left right =>
      rw [draft]
      split <;> simp [parts, exists_or]
  | call function distinct arguments => cases distinct <;> simp [draft, parts]
  | window function arguments partition order =>
      rw [lexemes_eq_draft, draft] at renders
      rw [draft]
      split
      case isTrue missing =>
        rw [if_pos missing] at renders
        cases renders
      case isFalse =>
        cases partitioned : database.dialect.supportsPartition <;>
          cases ordered : database.dialect.supportsWindowOrder <;>
            simp [parts, Dialect.windowClauses, partitioned, ordered, exists_or]
  | _ => simp [draft, parts, exists_or]

/-- Everywhere but behind a minus sign, a place asks for no more than a negation. -/
theorem place_of_mem_draft {expr : Expr} (member : .part place child ∈ expr.draft database) :
    (expr = .negate child ∧ place = .above .unary) ∨
      place.rank .declared ≤ 2 * Precedence.unary.level := by
  revert place child
  cases expr with
  | column reference => cases reference <;> simp [draft]
  | negate operand => simp [draft]
  | binary operator left right =>
      rw [draft]
      split
      · simp [Place.rank, or_imp, forall_and]
      · cases operator <;>
          simp [Place.rank, Precedence.level, BinaryOperator.precedence, or_imp, forall_and]
  | window function arguments partition order =>
      rw [draft]
      split
      · simp
      · cases database.dialect.supportsPartition <;>
          cases database.dialect.supportsWindowOrder <;>
            simp +contextual [Place.rank, or_imp]
  | call function distinct arguments =>
      cases distinct <;> simp +contextual [draft, Place.rank]
  | _ =>
      simp +contextual [draft, Place.rank, Precedence.level, NotLevel.rank, NotLevel.precedence,
        or_imp]

end Expr

end Parts

/-! ## Deriving the tokens of an expression -/

/-- Parentheses are put around whatever the body is. -/
theorem Lexeme.exists_grouped (needed : Bool) :
    ∃ opening closing, ∀ body, grouped needed body = opening ++ body ++ closing := by
  cases needed with
  | false => exact ⟨[], [], fun body => (List.append_nil body).symm⟩
  | true => exact ⟨[.opening true], [.closing true], fun _ => rfl⟩

section Derivations

variable {database : Database} {fits groups : Place → Phrase → Prop}

/-- The draft of an expression is written where the expression is. -/
theorem Draft.writable_of_mem {draft : Draft} {place : Place} {child : Expr}
    (renders : Lexeme.Writable database.dialect (draft.lexemes database))
    (member : .part place child ∈ draft) :
    Lexeme.Writable database.dialect (child.lexemes database) := by
  obtain ⟨before, after, rfl⟩ := List.append_of_mem member
  rw [lexemes_append, lexemes_part, Lexeme.writable_append, Lexeme.writable_append,
    Expr.placed, Lexeme.writable_grouped] at renders
  exact renders.2.1

theorem Draft.derives {draft : Draft}
    (parts : ∀ place child, .part place child ∈ draft →
      Derives database.dialect fits groups [.part place (child.written database)]
        (Lexeme.tokens database.dialect ((Item.part place child).lexemes database))) :
    Derives database.dialect fits groups (draft.frame database)
      (Lexeme.tokens database.dialect (draft.lexemes database)) := by
  induction draft with
  | nil => exact .nil
  | cons item rest ih =>
      have later := ih fun place child member =>
        parts place child (List.mem_cons_of_mem item member)
      cases item with
      | symbol lexeme =>
          have split : lexemes database (.symbol lexeme :: rest) =
              [lexeme] ++ lexemes database rest := rfl
          rw [split, Lexeme.tokens_append, frame_symbol]
          exact (Derives.symbols _).append later
      | part place child =>
          have split : lexemes database (.part place child :: rest) =
              (Item.part place child).lexemes database ++ lexemes database rest := rfl
          rw [split, Lexeme.tokens_append, frame_part]
          exact (parts place child List.mem_cons_self).part later

/-- A child is written as it may stand in its place. -/
def Place.Suits (database : Database) (fits groups : Place → Phrase → Prop) (place : Place)
    (child : Expr) : Prop :=
  if place.groups database.dialect child then groups place (child.written database)
  else fits place (child.written database)

theorem Place.Suits.mono {groups' : Place → Phrase → Prop} {place : Place} {child : Expr}
    (suits : place.Suits database fits groups child)
    (more : groups place (child.written database) → groups' place (child.written database)) :
    place.Suits database fits groups' child := by
  rw [Suits] at suits ⊢
  split
  case isTrue grouped => exact more (by rwa [if_pos grouped] at suits)
  case isFalse free => rwa [if_neg free] at suits

theorem Place.Suits.derives {place : Place} {child : Expr} {body : List Lexeme}
    (suits : place.Suits database fits groups child)
    (anywhere : ∀ phrase, fits .anywhere phrase)
    (derives : Derives database.dialect fits groups
      ((child.written database).frame database.dialect) (Lexeme.tokens database.dialect body)) :
    Derives database.dialect fits groups [.part place (child.written database)]
      (Lexeme.tokens database.dialect
        (Lexeme.grouped (place.groups database.dialect child) body)) := by
  rw [Suits] at suits
  cases grouped : place.groups database.dialect child with
  | false =>
      rw [grouped, if_neg Bool.false_ne_true] at suits
      exact .expand suits (by rwa [List.append_nil])
  | true =>
      rw [grouped, if_pos rfl] at suits
      have tokens : Lexeme.tokens database.dialect (Lexeme.grouped true body) =
          .opening :: (Lexeme.tokens database.dialect body ++ [.closing]) := by
        simp [Lexeme.grouped, Lexeme.cut]
      rw [tokens]
      exact .group suits (.expand (anywhere _) (derives.append (.symbol .closing .nil)))

/-- Whatever an expression contains is written as it may stand in its place. -/
structure Expr.Suits (database : Database) (fits groups : Place → Phrase → Prop) (expr : Expr) :
    Prop where
  anywhere : ∀ phrase, fits .anywhere phrase
  leaf : ∀ text, fits (.above .unary) (.leaf text)
  places : ∀ node, expr.Contains database.dialect.windowClauses node →
    ∀ place child, .part place child ∈ node.draft database →
      place.Suits database fits groups child

namespace Expr

variable {expr : Expr}

theorem Suits.of_contains {node : Expr} (suits : expr.Suits database fits groups)
    (contains : expr.Contains database.dialect.windowClauses node) :
    node.Suits database fits groups :=
  ⟨suits.anywhere, suits.leaf, fun other inner => suits.places other (contains.trans inner)⟩

/-- The frame of an expression derives what its draft does. -/
theorem derives_of_draft {tokens : List Token}
    (renders : Lexeme.Writable database.dialect (expr.lexemes database))
    (leaf : ∀ text, fits (.above .unary) (.leaf text))
    (derives : Derives database.dialect fits groups ((expr.draft database).frame database) tokens) :
    Derives database.dialect fits groups
      ((expr.written database).frame database.dialect) tokens := by
  by_cases negative : ∃ value, expr = .literal value ∧ (value.isNegative && value.hasLiteral)
  · -- A negative literal is a minus sign with a leaf behind it.
    obtain ⟨value, rfl, negative⟩ := negative
    rw [Bool.and_eq_true] at negative
    have symbols : (draft database (.literal value)).frame database =
        Frame.symbols [.operator .subtract, .leaf value.magnitude] := by
      simp [draft, negative.1, negative.2, Lexeme.cut, Dialect.literalTokens]
    have phrase : (literal value).written database = .negate (.leaf value.magnitude) := by
      simp [written, trimmed, Dialect.literalPhrase, negative.1, negative.2]
    rw [symbols] at derives
    rw [phrase]
    cases derives with
    | symbol _ derives => exact .symbol _ (.expand (leaf _) derives)
  · apply (frame_eq_draft renders _).symm ▸ derives
    intro value same
    rw [← Bool.not_eq_true]
    exact fun found => negative ⟨value, same, found⟩

theorem renders_of_mem_draft {place : Place} {child : Expr}
    (renders : Lexeme.Writable database.dialect (expr.lexemes database))
    (member : .part place child ∈ expr.draft database) :
    Lexeme.Writable database.dialect (child.lexemes database) := by
  rw [lexemes_eq_draft] at renders
  exact Draft.writable_of_mem renders member

theorem Suits.of_mem_draft {place : Place} {child : Expr} (suits : expr.Suits database fits groups)
    (renders : Lexeme.Writable database.dialect (expr.lexemes database))
    (member : .part place child ∈ expr.draft database) : child.Suits database fits groups :=
  suits.of_contains (Contains.self.part ((mem_parts_iff renders).mpr ⟨place, member⟩))

/-- The tokens of an expression are derived from the frame of its phrase. -/
theorem Suits.derives (suits : expr.Suits database fits groups)
    (renders : Lexeme.Writable database.dialect (expr.lexemes database)) :
    Derives database.dialect fits groups ((expr.written database).frame database.dialect)
      (expr.tokens database) := by
  induction expr using induction_on_parts with
  | step expr ih =>
      apply derives_of_draft renders suits.leaf
      rw [tokens, lexemes_eq_draft]
      apply Draft.derives
      intro place child member
      have isPart := mem_parts_all ((mem_parts_iff renders).mpr ⟨place, member⟩)
      have inner := ih child isPart (suits.of_mem_draft renders member)
        (renders_of_mem_draft renders member)
      exact (suits.places expr .self place child member).derives suits.anywhere inner

/-- The symbols of some items of a draft are derived from what they are in its frame. -/
theorem Suits.derives_items (items : Draft) (suits : expr.Suits database fits groups)
    (renders : Lexeme.Writable database.dialect (expr.lexemes database))
    (members : ∀ item ∈ items, item ∈ expr.draft database) :
    Derives database.dialect fits groups (items.frame database)
      (Lexeme.tokens database.dialect (items.lexemes database)) := by
  apply Draft.derives
  intro place child member
  have known := members _ member
  have inner := (suits.of_mem_draft renders known).derives (renders_of_mem_draft renders known)
  exact (suits.places expr .self place child known).derives suits.anywhere inner

/-- Whatever else is derived from the frame of an expression may stand in its place, within
all that contains it. -/
theorem Suits.replace {node : Expr} (suits : expr.Suits database fits groups)
    (renders : Lexeme.Writable database.dialect (expr.lexemes database))
    (contains : expr.Contains database.dialect.windowClauses node) :
    ∃ before after, expr.lexemes database = before ++ node.lexemes database ++ after ∧
      ∀ body, Derives database.dialect fits groups
          ((node.written database).frame database.dialect)
          (Lexeme.tokens database.dialect body) →
        Derives database.dialect fits groups ((expr.written database).frame database.dialect)
          (Lexeme.tokens database.dialect (before ++ body ++ after)) := by
  induction contains with
  | self => exact ⟨[], [], by simp, fun body derives => by simpa using derives⟩
  | @part middle node outer member ih =>
      obtain ⟨before, after, whole, replace⟩ := ih
      have middleRenders : Lexeme.Writable database.dialect (middle.lexemes database) := by
        rw [whole, Lexeme.writable_append, Lexeme.writable_append] at renders
        exact renders.1.2
      have middleSuits := suits.of_contains outer
      obtain ⟨place, placed⟩ := (mem_parts_iff middleRenders).mp member
      obtain ⟨ahead, behind, draft⟩ := List.append_of_mem placed
      -- The parentheses around the node are outside of what is replaced.
      obtain ⟨opening, closing, grouped⟩ :=
        Lexeme.exists_grouped (place.groups database.dialect node)
      refine ⟨before ++ Draft.lexemes database ahead ++ opening,
        closing ++ Draft.lexemes database behind ++ after, ?_, ?_⟩
      · have nodeLexemes : node.placed database place.required place.strict
            (node.lexemes database) = opening ++ node.lexemes database ++ closing := grouped _
        rw [whole, middle.lexemes_eq_draft, draft]
        simp [nodeLexemes]
      · intro body derives
        have nodeDerives := (middleSuits.places middle .self place node placed).derives
          suits.anywhere derives
        have aheadDerives := middleSuits.derives_items ahead middleRenders (by simp_all)
        have behindDerives := middleSuits.derives_items behind middleRenders (by simp_all)
        have together := aheadDerives.append (nodeDerives.part behindDerives)
        have middleDerives := replace (Draft.lexemes database ahead ++
          (Lexeme.grouped (place.groups database.dialect node) body ++
            Draft.lexemes database behind))
          (derives_of_draft middleRenders suits.leaf (by
            simpa [draft] using together))
        simpa [grouped] using middleDerives

end Expr

end Derivations

/-! ## Parentheses as they are declared -/

/-- A number below zero without a literal, which is handed over as an argument. -/
def Value.isNegativeArgument (value : Value) : Bool :=
  value.isNegative && !value.hasLiteral

/-- A child stands in parentheses where its place asks for a higher rank. -/
theorem Place.groups_iff {dialect : Dialect} {place : Place} {child : Expr} :
    place.groups dialect child = true ↔
      2 * (child.precedence dialect).level < place.rank .declared := by
  have needs : place.groups dialect child = true ↔
      (child.precedence dialect).level < place.required.level ∨
        place.strict = true ∧ (child.precedence dialect).level = place.required.level := by
    simp [groups, Expr.needsGroup]
  rw [needs]
  cases place with
  | anywhere => simp [rank, required, strict, Precedence.level]
  | atLeast precedence =>
      simp only [rank, required, strict, Bool.false_eq_true, false_and, or_false]
      omega
  | above precedence =>
      simp only [rank, required, strict, true_and]
      omega
  | negated =>
      simp only [rank, required, strict, NotLevel.rank, NotLevel.precedence, Bool.false_eq_true,
        false_and, or_false]
      omega

namespace Expr

variable {database : Database} {node child : Expr} {place : Place} {value : Value}

theorem written_negativeArgument (negative : value.isNegativeArgument = true) :
    (literal value).written database = .place value := by
  rw [Value.isNegativeArgument, Bool.and_eq_true, Bool.not_eq_true'] at negative
  simp [written, trimmed, phrase, Dialect.literalPhrase, negative.2]

/-- A phrase binds as tightly as the expression it is written for. -/
theorem precedence_written
    (plain : ∀ value, child = .literal value → value.isNegativeArgument = false) :
    (child.written database).precedence database.dialect .declared =
      child.precedence database.dialect := by
  cases child with
  | literal value =>
      have known := plain value rfl
      simp only [written, trimmed, phrase, Dialect.literalPhrase, precedence]
      rw [Value.isNegativeArgument] at known
      cases finite : value.hasLiteral <;> cases negative : value.isNegative <;>
        simp_all [Phrase.precedence]
  | binary operator left right =>
      cases operator with
      | concat =>
          cases missing : database.dialect.concatOperator? <;>
            simp [written, trimmed, Phrase.precedence, precedence, missing,
              BinaryOperator.precedence]
      | _ => rfl
  | _ => rfl

/-- But for arguments, what stands in parentheses is what does not fit. -/
theorem groups_iff_not_fits
    (plain : ∀ value, child = .literal value → value.isNegativeArgument = false) :
    place.groups database.dialect child = true ↔
      ¬ (child.written database).Fits database.dialect .declared place := by
  rw [Place.groups_iff, Phrase.Fits, Phrase.rank_declared, precedence_written plain, Nat.not_le]

/-- But for arguments, parentheses stand only around what does not fit. -/
theorem suits_of_plain
    (plain : ∀ value, child = .literal value → value.isNegativeArgument = false) :
    place.Suits database (Phrase.Fits database.dialect .declared)
      (fun place phrase => ¬ phrase.Fits database.dialect .declared place) child := by
  have needed := @groups_iff_not_fits database child place plain
  rw [Place.Suits]
  split
  case isTrue grouped => exact needed.mp grouped
  case isFalse free => exact not_not.mp (mt needed.mpr free)

/-- An argument fits wherever it stands. -/
theorem place_fits (member : .part place child ∈ node.draft database) :
    (Phrase.place value).Fits database.dialect .declared place := by
  rcases place_of_mem_draft member with ⟨_, rfl⟩ | low
  · exact Nat.le_of_ble_eq_true rfl
  · exact Nat.le_trans low (Nat.le_of_ble_eq_true rfl)

theorem argument_or_plain (child : Expr) :
    (∃ value, child = .literal value ∧ value.isNegativeArgument = true) ∨
      ∀ value, child = .literal value → value.isNegativeArgument = false := by
  by_cases argument : ∃ value, child = .literal value ∧ value.isNegativeArgument = true
  · exact .inl argument
  · refine .inr fun value same => ?_
    rw [← Bool.not_eq_true]
    exact fun negative => argument ⟨value, same, negative⟩

/-- Parentheses stand only around what does not fit, and around a negative number without a
literal behind a minus sign. -/
theorem suits_declared (member : .part place child ∈ node.draft database) :
    place.Suits database (Phrase.Fits database.dialect .declared)
      (Sparing (Phrase.Fits database.dialect .declared) fun value =>
        value.isNegativeArgument = true ∧ node = .negate (.literal value)) child := by
  rcases child.argument_or_plain with ⟨value, rfl, negative⟩ | plain
  · have written := @written_negativeArgument database value negative
    rw [Place.Suits, written]
    rcases place_of_mem_draft member with ⟨rfl, rfl⟩ | low
    · split
      · exact fun _ => ⟨rfl, value, ⟨negative, rfl⟩, rfl⟩
      · exact place_fits member
    · have unary : (literal value).precedence database.dialect = .unary := by
        rw [Value.isNegativeArgument, Bool.and_eq_true] at negative
        rw [precedence, if_pos negative.1]
      have free : ¬ place.groups database.dialect (literal value) = true := by
        rw [Place.groups_iff, unary, Nat.not_lt]
        exact low
      rw [if_neg free]
      exact place_fits member
  · exact (suits_of_plain plain).mono fun unfit fits => (unfit fits).elim

end Expr

end SqlSelect
