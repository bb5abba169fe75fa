import Mathlib.Data.List.Forall2
import SqlSelect.Proofs.Grammar.Frame

/-!
# Derivations

A frame derives a token list from left to right: a part is replaced by its own frame where it
fits its place, and may be put in parentheses.  What fits and what is put in parentheses is
left open, so that a writer and its readers are cases of one relation.

Two derivations of the same tokens from the same frame take the same steps, whatever fits in
one or the other.
-/

namespace SqlSelect

/-- The frame derives the tokens, where some parts fit their places and some may be put in
parentheses. -/
inductive Derives (dialect : Dialect) (fits groups : Place → Phrase → Prop) :
    Frame → List Token → Prop where
  | nil : Derives dialect fits groups [] []
  | symbol (token : Token) {rest : Frame} {tokens : List Token} :
      Derives dialect fits groups rest tokens →
      Derives dialect fits groups (.symbol token :: rest) (token :: tokens)
  | expand {place : Place} {phrase : Phrase} {rest : Frame} {tokens : List Token} :
      fits place phrase → Derives dialect fits groups (phrase.frame dialect ++ rest) tokens →
      Derives dialect fits groups (.part place phrase :: rest) tokens
  | group {place : Place} {phrase : Phrase} {rest : Frame} {tokens : List Token} :
      groups place phrase →
      Derives dialect fits groups (.part .anywhere phrase :: .symbol .closing :: rest) tokens →
      Derives dialect fits groups (.part place phrase :: rest) (.opening :: tokens)

namespace Derives

variable {dialect : Dialect} {fits groups fits' groups' : Place → Phrase → Prop}
variable {frame left right : Frame} {tokens : List Token}

theorem mono (derives : Derives dialect fits groups frame tokens)
    (moreFits : ∀ place phrase, fits place phrase → fits' place phrase)
    (moreGroups : ∀ place phrase, groups place phrase → groups' place phrase) :
    Derives dialect fits' groups' frame tokens := by
  induction derives with
  | nil => exact .nil
  | symbol token _ ih => exact .symbol token ih
  | expand fit _ ih => exact .expand (moreFits _ _ fit) ih
  | group grouped _ ih => exact .group (moreGroups _ _ grouped) ih

theorem append {leftTokens rightTokens : List Token}
    (first : Derives dialect fits groups left leftTokens)
    (second : Derives dialect fits groups right rightTokens) :
    Derives dialect fits groups (left ++ right) (leftTokens ++ rightTokens) := by
  induction first with
  | nil => exact second
  | symbol token _ ih => exact .symbol token ih
  | expand fit _ ih =>
      rw [List.append_assoc] at ih
      exact .expand fit ih
  | group grouped _ ih => exact .group grouped ih

theorem part {place : Place} {phrase : Phrase} {own : List Token}
    (first : Derives dialect fits groups [.part place phrase] own)
    (second : Derives dialect fits groups right tokens) :
    Derives dialect fits groups (.part place phrase :: right) (own ++ tokens) :=
  first.append second

theorem symbols (tokens : List Token) :
    Derives dialect fits groups (Frame.symbols tokens) tokens := by
  induction tokens with
  | nil => exact .nil
  | cons token rest ih => exact .symbol token ih

theorem enclosed (derives : Derives dialect fits groups frame tokens) :
    Derives dialect fits groups (Frame.enclosed frame) (Token.enclosed tokens) :=
  .symbol .opening (derives.append (.symbol .closing .nil))

theorem separated {items : List Frame} {lists : List (List Token)}
    (derives : List.Forall₂ (Derives dialect fits groups) items lists) :
    Derives dialect fits groups (Item.separated .comma items) (Token.separated lists) := by
  induction derives with
  | nil => exact .nil
  | cons first rest ih =>
      cases rest with
      | nil => exact first
      | cons _ _ => exact first.append (.symbol .comma ih)

theorem clause (keyword : Keyword) {items : List Frame} {lists : List (List Token)}
    (derives : List.Forall₂ (Derives dialect fits groups) items lists) :
    Derives dialect fits groups (Frame.clause keyword items) (Token.clause keyword lists) := by
  cases derives with
  | nil => exact .nil
  | cons first rest => exact .symbol _ (.symbol _ (separated (.cons first rest)))

theorem split (derives : Derives dialect fits groups (left ++ right) tokens) :
    ∃ leftTokens rightTokens, tokens = leftTokens ++ rightTokens ∧
      Derives dialect fits groups left leftTokens ∧
        Derives dialect fits groups right rightTokens := by
  generalize whole : left ++ right = frame at derives
  induction derives generalizing left with
  | nil =>
      obtain ⟨rfl, rfl⟩ := List.append_eq_nil_iff.mp whole
      exact ⟨[], [], rfl, .nil, .nil⟩
  | @symbol token rest tokens derives ih =>
      cases left with
      | nil =>
          cases whole
          exact ⟨[], _, rfl, .nil, .symbol token derives⟩
      | cons item others =>
          cases whole
          obtain ⟨leftTokens, rightTokens, rfl, first, second⟩ := ih rfl
          exact ⟨token :: leftTokens, rightTokens, rfl, .symbol token first, second⟩
  | @expand place phrase rest tokens fit derives ih =>
      cases left with
      | nil =>
          cases whole
          exact ⟨[], _, rfl, .nil, .expand fit derives⟩
      | cons item others =>
          cases whole
          obtain ⟨leftTokens, rightTokens, rfl, first, second⟩ := ih (List.append_assoc _ _ _)
          exact ⟨leftTokens, rightTokens, rfl, .expand fit first, second⟩
  | @group place phrase rest tokens grouped derives ih =>
      cases left with
      | nil =>
          cases whole
          exact ⟨[], _, rfl, .nil, .group grouped derives⟩
      | cons item others =>
          cases whole
          obtain ⟨leftTokens, rightTokens, rfl, first, second⟩ :=
            @ih (.part .anywhere phrase :: .symbol .closing :: others) rfl
          exact ⟨.opening :: leftTokens, rightTokens, rfl, .group grouped first, second⟩

/-- What is derived closes what it opens, as far as its frame does. -/
theorem excess_eq (derives : Derives dialect fits groups frame tokens) :
    Token.excess tokens = frame.excess := by
  induction derives with
  | nil => rfl
  | symbol token _ ih => simp [ih]
  | @expand _ phrase _ _ _ _ ih => simp [ih, phrase.excess_frame]
  | group _ _ ih =>
      simp only [Frame.excess_part, Frame.excess_symbol] at ih
      rw [Token.excess_cons, ih, Frame.excess_part, Token.depth, Token.depth]
      omega

/-! ## Tokens without parentheses -/

/-- Without parentheses of their own, phrases derive one token list. -/
theorem bare_functional {other : List Token}
    (first : Derives dialect (fun _ _ => True) (fun _ _ => False) frame tokens)
    (second : Derives dialect (fun _ _ => True) (fun _ _ => False) frame other) :
    tokens = other := by
  induction first generalizing other with
  | nil =>
      cases second
      rfl
  | symbol token _ ih =>
      cases second with
      | symbol _ rest => rw [ih rest]
  | expand _ _ ih =>
      cases second with
      | expand _ rest => exact ih rest
      | group grouped _ => cases grouped
  | group grouped _ _ => cases grouped

/-- The number of tokens that are no parentheses. -/
def plains (tokens : List Token) : Nat :=
  tokens.countP Token.isPlain

/-- Parentheses around phrases may be left out. -/
theorem exists_bare (derives : Derives dialect fits groups frame tokens) :
    ∃ bare, Derives dialect (fun _ _ => True) (fun _ _ => False) frame bare ∧
      plains bare = plains tokens := by
  induction derives with
  | nil => exact ⟨[], .nil, rfl⟩
  | symbol token _ ih =>
      obtain ⟨bare, derives, same⟩ := ih
      refine ⟨token :: bare, .symbol token derives, ?_⟩
      simp only [plains] at same
      simp only [plains, List.countP_cons, same]
  | expand _ _ ih =>
      obtain ⟨bare, derives, same⟩ := ih
      exact ⟨bare, .expand trivial derives, same⟩
  | @group place phrase rest tokens _ _ ih =>
      obtain ⟨bare, derives, same⟩ := ih
      cases derives with
      | group grouped _ => cases grouped
      | expand _ derives =>
          obtain ⟨own, _, rfl, ownDerives, later⟩ := derives.split
          cases later with
          | @symbol _ _ others later =>
              refine ⟨own ++ others, .expand trivial (ownDerives.append later), ?_⟩
              simpa [plains, Token.isPlain] using same

/-- Whatever fits and whatever is put in parentheses, a frame derives as many other tokens. -/
theorem plains_eq {other : List Token} (first : Derives dialect fits groups frame tokens)
    (second : Derives dialect fits' groups' frame other) : plains tokens = plains other := by
  obtain ⟨bare, bareDerives, same⟩ := first.exists_bare
  obtain ⟨bare', bareDerives', same'⟩ := second.exists_bare
  rw [← same, ← same', bareDerives.bare_functional bareDerives']

/-- A list is cut in one way at a token that is no parenthesis, given how many are ahead. -/
theorem cut_unique {before before' after after' : List Token} {token token' : Token}
    (plain : token.isPlain = true) (plain' : token'.isPlain = true)
    (whole : before ++ token :: after = before' ++ token' :: after')
    (same : plains before = plains before') : before = before' := by
  induction before generalizing before' with
  | nil =>
      cases before' with
      | nil => rfl
      | cons first rest =>
          cases whole
          simp [plains, plain] at same
  | cons first rest ih =>
      cases before' with
      | nil =>
          cases whole
          simp [plains, plain'] at same
      | cons first' rest' =>
          simp only [List.cons_append, List.cons.injEq] at whole
          obtain ⟨rfl, whole⟩ := whole
          have restSame : plains rest = plains rest' := by
            simpa [plains, List.countP_cons] using same
          rw [ih whole restSame]

/-! ## Derivations of the same tokens -/

/-- Of a phrase that starts with a part, the tokens ahead of the symbol behind that part are
those of the part, in parentheses that may still be open. -/
theorem exists_lead {place partPlace : Place} {phrase part : Phrase} {token : Token}
    {rest more : Frame} {partTokens : List Token}
    (derives : Derives dialect fits groups (.part place phrase :: rest) tokens)
    (leads : phrase.frame dialect = .part partPlace part :: .symbol token :: more)
    (partDerives : Derives dialect fits' groups' [.part partPlace part] partTokens) :
    ∃ before after, tokens = before ++ token :: after ∧ plains before = plains partTokens ∧
      0 ≤ Token.excess before := by
  generalize whole : Item.part place phrase :: rest = frame at derives
  induction derives generalizing place rest with
  | nil | symbol _ _ _ => cases whole
  | expand _ derives _ =>
      cases whole
      rw [leads, ← List.singleton_append, List.append_assoc] at derives
      obtain ⟨before, _, rfl, own, later⟩ := derives.split
      cases later with
      | symbol _ later =>
          exact ⟨before, _, rfl, own.plains_eq partDerives, Int.le_of_eq own.excess_eq.symm⟩
  | group _ _ ih =>
      cases whole
      obtain ⟨before, after, rfl, same, balance⟩ := ih rfl
      refine ⟨.opening :: before, after, rfl, ?_, ?_⟩
      · simpa [plains, Token.isPlain] using same
      · rw [Token.excess_cons, Token.depth]
        omega

/-- What a phrase derives by itself is not derived with parentheses around it. -/
theorem not_grouped {phrase : Phrase} {rest : Frame}
    (expanded : Derives dialect fits groups (phrase.frame dialect ++ rest) (.opening :: tokens))
    (grouped : Derives dialect fits' groups'
      (.part .anywhere phrase :: .symbol .closing :: rest) tokens) : False := by
  rcases phrase.frame_cases dialect with
    ⟨token, more, frame, plain⟩ | ⟨place, part, token, more, frame, plain⟩
  · rw [frame] at expanded
    cases expanded
    cases plain
  · rw [frame, ← List.singleton_append, List.append_assoc] at expanded
    obtain ⟨own, _, cut, ownDerives, later⟩ := expanded.split
    cases later with
    | symbol _ later =>
        obtain ⟨before, after, rfl, same, balance⟩ := grouped.exists_lead frame ownDerives
        have lead : own = .opening :: before := by
          apply cut_unique plain plain cut.symm
          simpa [plains, Token.isPlain] using same.symm
        have closed : Token.excess own = 0 := ownDerives.excess_eq
        rw [lead, Token.excess_cons, Token.depth] at closed
        omega

/-- Two derivations of the same tokens from the same frame take the same steps. -/
theorem agree (first : Derives dialect fits groups frame tokens)
    (second : Derives dialect fits' groups' frame tokens) :
    Derives dialect (fun place phrase => fits place phrase ∧ fits' place phrase)
      (fun place phrase => groups place phrase ∧ groups' place phrase) frame tokens := by
  induction first with
  | nil => exact .nil
  | symbol token _ ih =>
      cases second with
      | symbol _ second => exact .symbol token (ih second)
  | expand fit derives ih =>
      cases second with
      | expand fit' second => exact .expand ⟨fit, fit'⟩ (ih second)
      | group _ second => exact (derives.not_grouped second).elim
  | group grouped derives ih =>
      cases second with
      | expand _ second => exact (second.not_grouped derives).elim
      | group grouped' second => exact .group ⟨grouped, grouped'⟩ (ih second)

end Derives

end SqlSelect
