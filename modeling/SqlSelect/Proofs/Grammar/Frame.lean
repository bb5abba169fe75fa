import Mathlib.Algebra.Ring.Int.Defs
import SqlSelect.Proofs.Grammar.Grammar

/-!
# Frames

The frame of a phrase is what is written of it around its parts, and the place in which each
part stands.  How loosely a phrase may bind in a place is a matter of ranks.  They follow the
precedences, but for the word NOT, whose level is left open.
-/

namespace SqlSelect

/-- Where a part stands. -/
inductive Place where
  /-- Between parentheses, commas and words that keep it apart from all else. -/
  | anywhere
  /-- Where something binds at least as tightly. -/
  | atLeast (precedence : Precedence)
  /-- Where something binds more tightly. -/
  | above (precedence : Precedence)
  /-- Behind the word NOT. -/
  | negated
deriving DecidableEq, Repr

/-- A symbol, or a part in its place. -/
inductive Item (σ τ : Type) where
  | symbol (symbol : σ)
  | part (place : Place) (part : τ)

namespace Item

variable {σ τ : Type}

/-- The items one after another, with commas between them. -/
def separated (comma : σ) : List (List (Item σ τ)) → List (Item σ τ)
  | [] => []
  | [item] => item
  | item :: rest => item ++ .symbol comma :: separated comma rest

/-- Some parts that stand between commas. -/
def listed (comma : σ) (parts : List τ) : List (Item σ τ) :=
  separated comma (parts.map fun part => [.part .anywhere part])

theorem separated_cons_cons (comma : σ) (item second : List (Item σ τ))
    (rest : List (List (Item σ τ))) :
    separated comma (item :: second :: rest) =
      item ++ .symbol comma :: separated comma (second :: rest) := rfl

theorem part_mem_separated (comma : σ) {items : List (List (Item σ τ))} {place : Place} {own : τ} :
    .part place own ∈ separated comma items ↔ ∃ item ∈ items, .part place own ∈ item := by
  induction items with
  | nil => simp [separated]
  | cons item rest ih =>
      cases rest with
      | nil => simp [separated]
      | cons second others =>
          rw [separated_cons_cons, List.mem_append, List.mem_cons, ih]
          simp

@[simp] theorem part_mem_listed {comma : σ} {parts : List τ} {place : Place} {own : τ} :
    .part place own ∈ listed comma parts ↔ place = .anywhere ∧ own ∈ parts := by
  rw [listed, part_mem_separated]
  constructor
  · rintro ⟨_, member, found⟩
    obtain ⟨part, known, rfl⟩ := List.mem_map.mp member
    obtain ⟨rfl, rfl⟩ := Item.part.inj (List.mem_singleton.mp found)
    exact ⟨rfl, known⟩
  · rintro ⟨rfl, member⟩
    exact ⟨_, List.mem_map_of_mem member, List.mem_cons_self⟩

end Item

/-- What is written of a phrase, with its parts in their places. -/
abbrev Frame := List (Item Token Phrase)

namespace Frame

def symbols (tokens : List Token) : Frame :=
  tokens.map .symbol

def enclosed (body : Frame) : Frame :=
  .symbol .opening :: body ++ [.symbol .closing]

/-- A clause of a window, left out where it is empty. -/
def clause (keyword : Keyword) (items : List Frame) : Frame :=
  if items.isEmpty then []
  else .symbol (.keyword keyword) :: .symbol (.keyword .by) :: Item.separated .comma items

end Frame

namespace Phrase

/-- The frame of an entry of an ORDER BY list. -/
def orderFrame (item : OrderItem Phrase) : Frame :=
  .part .anywhere item.expr ::
    if item.descending then [.symbol (.keyword .descending)] else []

/-- The frame of a branch of a CASE. -/
def branchFrame (branch : Branch Phrase) : Frame :=
  [.symbol (.keyword .when), .part .anywhere branch.condition,
    .symbol (.keyword .thenResult), .part .anywhere branch.result]

/-- The frame behind the branches of a CASE. -/
def otherwiseFrame : Option Phrase → Frame
  | none => []
  | some result => [.symbol (.keyword .otherwise), .part .anywhere result]

/-- The frame of a phrase. -/
def frame (dialect : Dialect) : Phrase → Frame
  | .place value => [.symbol (.place value)]
  | .leaf text => [.symbol (.leaf text)]
  | .query pieces => [.symbol (.query pieces)]
  | .not operand => [.symbol (.keyword .not), .part .negated operand]
  | .negate operand => [.symbol (.operator .subtract), .part (.above .unary) operand]
  | .binary operator left right =>
    if operator = .concat ∧ dialect.concatOperator? = none then
      .symbol (.concat) :: Frame.enclosed
        [.part .anywhere left, .symbol .comma, .part .anywhere right]
    else
      [.part (.atLeast operator.precedence) left, .symbol (.operator operator),
        .part (.above operator.precedence) right]
  | .between negated operand low high =>
    .part (.above .predicate) operand :: Frame.symbols (Token.negation negated) ++
      [.symbol (.keyword .between), .part (.atLeast .additive) low, .symbol (.operator .and),
        .part (.atLeast .additive) high]
  | .like negated operand pattern =>
    .part (.above .predicate) operand :: Frame.symbols (Token.negation negated) ++
      [.symbol (.keyword .like), .part (.atLeast .additive) pattern]
  | .inList negated operand items =>
    .part (.above .predicate) operand :: Frame.symbols (Token.negation negated) ++
      .symbol (.keyword .isIn) :: Frame.enclosed (Item.listed .comma items)
  | .inQuery negated operand pieces =>
    .part (.above .predicate) operand :: Frame.symbols (Token.negation negated) ++
      [.symbol (.keyword .isIn), .symbol (.query pieces)]
  | .exists negated pieces =>
    Frame.symbols (Token.negation negated) ++ [.symbol (.keyword .exists), .symbol (.query pieces)]
  | .isNull negated operand =>
    .part (.above .predicate) operand :: .symbol (.keyword .is) ::
      Frame.symbols (Token.negation negated) ++ [.symbol (.keyword .null)]
  | .call function distinct arguments =>
    .symbol (.function function) :: Frame.enclosed
      ((if distinct then [.symbol (.keyword .distinct)] else []) ++ Item.listed .comma arguments)
  | .countAll =>
    .symbol (.function .count) :: Frame.enclosed [.symbol (.operator .multiply)]
  | .cast operand type =>
    .symbol (.keyword .cast) :: Frame.enclosed
      [.part .anywhere operand, .symbol (.keyword .asType), .symbol (.leaf type)]
  | .window function arguments partition order =>
    .symbol (.function function) ::
      Frame.enclosed (Item.listed .comma arguments) ++
      .symbol (.keyword .over) :: Frame.enclosed
        (Frame.clause .partition (partition.map fun item => [.part .anywhere item]) ++
          Frame.clause .order (order.map orderFrame))
  | .case branches otherwise =>
    .symbol (.keyword .case) :: branches.flatMap branchFrame ++ otherwiseFrame otherwise ++
      [.symbol (.keyword .endCase)]

/-! ## Ranks -/

/-- How tightly a phrase binds. -/
def precedence (dialect : Dialect) (level : NotLevel) : Phrase → Precedence
  | .binary operator _ _ =>
    if operator = .concat ∧ dialect.concatOperator? = none then .primary
    else operator.precedence
  | .not _ => level.precedence
  | .negate _ => .unary
  | .between .. | .like .. | .inList .. | .inQuery .. | .exists .. | .isNull .. => .predicate
  | .place _ | .leaf _ | .query _ | .call .. | .countAll | .cast .. | .window .. | .case .. =>
    .primary

end Phrase

/-- The rank of a NOT. -/
def NotLevel.rank (level : NotLevel) : Nat :=
  2 * level.precedence.level

/-- The rank of an EXISTS that no NOT belongs to.  It may stand wherever a predicate may, but for
right behind a NOT, which would take it in. -/
def NotLevel.existsRank : NotLevel → Nat
  | .declared => 2 * Precedence.predicate.level
  | .standard => 2 * Precedence.and.level + 1

/-- The rank that a place asks for. -/
def Place.rank (level : NotLevel) : Place → Nat
  | .anywhere => 0
  | .atLeast precedence => 2 * precedence.level
  | .above precedence => 2 * precedence.level + 1
  | .negated => level.rank

/-- The rank of a phrase. -/
def Phrase.rank (dialect : Dialect) (level : NotLevel) : Phrase → Nat
  | .exists false _ => level.existsRank
  | phrase => 2 * (phrase.precedence dialect level).level

/-- The phrase binds as tightly as the place asks for. -/
def Phrase.Fits (dialect : Dialect) (level : NotLevel) (place : Place) (phrase : Phrase) :
    Prop :=
  place.rank level ≤ phrase.rank dialect level

theorem Phrase.fits_anywhere (dialect : Dialect) (level : NotLevel) (phrase : Phrase) :
    phrase.Fits dialect level .anywhere :=
  Nat.zero_le _

/-- An EXISTS right behind a NOT belongs to it. -/
theorem Phrase.not_fits_negated (dialect : Dialect) (level : NotLevel) (pieces : List Piece) :
    ¬ (Phrase.exists false pieces).Fits dialect level .negated := by
  intro fits
  have bound : level.rank ≤ level.existsRank := fits
  cases level <;> exact absurd bound (by decide)

theorem Phrase.rank_declared (dialect : Dialect) (phrase : Phrase) :
    phrase.rank dialect .declared = 2 * (phrase.precedence dialect .declared).level := by
  cases phrase with
  | «exists» negated _ => cases negated <;> rfl
  | _ => rfl

theorem Place.rank_standard_le (place : Place) : place.rank .standard ≤ place.rank .declared := by
  cases place with
  | negated => decide
  | _ => exact Nat.le_refl _

/-- Only NOT and EXISTS have another rank in standard SQL. -/
theorem Phrase.rank_standard {dialect : Dialect} {phrase : Phrase}
    (noNot : ∀ operand, phrase ≠ .not operand)
    (noExists : ∀ pieces, phrase ≠ .exists false pieces) :
    phrase.rank dialect .standard = phrase.rank dialect .declared := by
  cases phrase with
  | not operand => exact (noNot operand rfl).elim
  | «exists» negated pieces =>
      cases negated with
      | false => exact (noExists pieces rfl).elim
      | true => rfl
  | _ => rfl

/-! ## Parentheses in frames -/

namespace Token

/-- The token is no parenthesis. -/
def isPlain : Token → Bool
  | .opening | .closing => false
  | _ => true

/-- The step of a token into parentheses, or out of them. -/
def depth : Token → Int
  | .opening => 1
  | .closing => -1
  | _ => 0

/-- The parentheses that are opened beyond those that are closed. -/
def excess (tokens : List Token) : Int :=
  (tokens.map depth).sum

@[simp] theorem excess_nil : excess [] = 0 := rfl

@[simp] theorem excess_cons (token : Token) (rest : List Token) :
    excess (token :: rest) = token.depth + excess rest := by
  simp [excess]

@[simp] theorem excess_append (left right : List Token) :
    excess (left ++ right) = excess left + excess right := by
  simp [excess]

end Token

namespace Frame

/-- The parentheses that the symbols of a frame open beyond those that they close. -/
def excess : Frame → Int
  | [] => 0
  | .symbol token :: rest => token.depth + excess rest
  | .part _ _ :: rest => excess rest

@[simp] theorem excess_nil : excess [] = 0 := rfl

@[simp] theorem excess_symbol (token : Token) (rest : Frame) :
    excess (.symbol token :: rest) = token.depth + excess rest := rfl

@[simp] theorem excess_part (place : Place) (phrase : Phrase) (rest : Frame) :
    excess (.part place phrase :: rest) = excess rest := rfl

@[simp] theorem excess_append (left right : Frame) :
    excess (left ++ right) = excess left + excess right := by
  induction left with
  | nil => simp
  | cons item rest ih => cases item <;> simp [ih, Int.add_assoc]

@[simp] theorem excess_enclosed (body : Frame) : excess (enclosed body) = excess body := by
  simp only [enclosed, List.cons_append, excess_symbol, excess_append, excess_nil, Token.depth]
  omega

@[simp] theorem excess_negation (negated : Bool) :
    excess (symbols (Token.negation negated)) = 0 := by
  cases negated <;> rfl

theorem excess_separated {items : List Frame} (balanced : ∀ item ∈ items, item.excess = 0) :
    excess (Item.separated .comma items) = 0 := by
  induction items with
  | nil => rfl
  | cons item rest ih =>
      rw [List.forall_mem_cons] at balanced
      cases rest with
      | nil => exact balanced.1
      | cons second others =>
          rw [Item.separated_cons_cons, excess_append, excess_symbol, balanced.1, ih balanced.2]
          rfl

@[simp] theorem excess_listed (parts : List Phrase) :
    excess (Item.listed .comma parts) = 0 := by
  apply excess_separated
  simp

@[simp] theorem excess_clause (keyword : Keyword) {items : List Frame}
    (balanced : ∀ item ∈ items, item.excess = 0) : excess (clause keyword items) = 0 := by
  rw [clause]
  split
  · rfl
  · simp [Token.depth, excess_separated balanced]

end Frame

namespace Phrase

/-- A frame closes what it opens. -/
theorem excess_frame (dialect : Dialect) (phrase : Phrase) : (phrase.frame dialect).excess = 0 := by
  cases phrase with
  | binary operator left right =>
      rw [frame]
      split <;> simp [Token.depth]
  | call function distinct arguments => cases distinct <;> simp [frame, Token.depth]
  | window function arguments partition order =>
      have partitionBalanced : ∀ item ∈ partition.map fun item => [Item.part .anywhere item],
          Frame.excess item = 0 := by simp
      have orderBalanced : ∀ item ∈ order.map orderFrame, Frame.excess item = 0 := by
        intro item member
        obtain ⟨⟨expr, descending⟩, _, rfl⟩ := List.mem_map.mp member
        cases descending <;> rfl
      simp [frame, Token.depth, Frame.excess_clause _ partitionBalanced,
        Frame.excess_clause _ orderBalanced]
  | case branches otherwise =>
      have branchesBalanced : Frame.excess (branches.flatMap branchFrame) = 0 := by
        induction branches with
        | nil => rfl
        | cons branch rest ih => simp [branchFrame, ih, Token.depth]
      have otherwiseBalanced : Frame.excess (otherwiseFrame otherwise) = 0 := by
        cases otherwise <;> rfl
      simp [frame, Token.depth, branchesBalanced, otherwiseBalanced]
  | _ => simp [frame, Token.depth]

/-- A frame starts with a symbol that opens nothing, or with a part and a symbol behind it
that is no parenthesis. -/
theorem frame_cases (dialect : Dialect) (phrase : Phrase) :
    (∃ token rest, phrase.frame dialect = .symbol token :: rest ∧ token.isPlain = true) ∨
      ∃ place part token rest, phrase.frame dialect = .part place part :: .symbol token :: rest ∧
        token.isPlain = true := by
  cases phrase with
  | binary operator left right =>
      rw [frame]
      split
      · exact .inl ⟨_, _, rfl, rfl⟩
      · exact .inr ⟨_, _, _, _, rfl, rfl⟩
  | between negated _ _ _ | like negated _ _ | inList negated _ _ | inQuery negated _ _ =>
      cases negated <;> exact .inr ⟨_, _, _, _, rfl, rfl⟩
  | «exists» negated _ => cases negated <;> exact .inl ⟨_, _, rfl, rfl⟩
  | isNull _ _ => exact .inr ⟨_, _, _, _, rfl, rfl⟩
  | _ => exact .inl ⟨_, _, rfl, rfl⟩

end Phrase

end SqlSelect
