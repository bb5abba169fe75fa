import SqlSelect.Proofs.Grammar.Derivation

/-!
# Leaving out a pair of parentheses

Two derivations from one frame put the same symbols at the same places, so that they differ in
the parentheses ahead of a symbol only.  If one of them puts parentheses only around what does
not fit, it has as few of them ahead of each symbol as any other, and no pair can be left out.
Arguments behind a minus sign are an exception that is allowed for: they may stand in
parentheses that can be left out.
-/

namespace SqlSelect

namespace Token

/-- Whatever is opened is closed again, and the other way around. -/
structure Paired (tokens : List Token) : Prop where
  closed : excess tokens = 0
  opened : ∀ before, before <+: tokens → 0 ≤ excess before

theorem paired_place (value : Value) : Paired [.place value] := by
  refine ⟨rfl, ?_⟩
  rintro before ⟨after, whole⟩
  cases before with
  | nil => exact Int.le_refl 0
  | cons token rest =>
      obtain ⟨rfl, none⟩ := List.cons.inj whole
      obtain ⟨rfl, _⟩ := List.append_eq_nil_iff.mp none
      exact Int.le_refl 0

/-- The number of parentheses that are opened ahead of all else. -/
def lead : List Token → Nat
  | .opening :: rest => lead rest + 1
  | .closing :: rest => lead rest
  | _ => 0

@[simp] theorem lead_opening (rest : List Token) : lead (.opening :: rest) = lead rest + 1 := rfl

@[simp] theorem lead_closing (rest : List Token) : lead (.closing :: rest) = lead rest := rfl

/-- Closing parentheses do not count. -/
@[simp] theorem lead_append_closing (left right : List Token) :
    lead (left ++ .closing :: right) = lead (left ++ right) := by
  induction left with
  | nil => rfl
  | cons token rest ih => cases token <;> simp [lead, ih]

/-- Without a pair of parentheses there are no more of them ahead. -/
theorem lead_delete_le (before body after : List Token) :
    lead (before ++ body ++ after) ≤
      lead (before ++ .opening :: (body ++ .closing :: after)) := by
  induction before with
  | nil => simp
  | cons token rest ih => cases token <;> simp_all [lead]

/-- A placeholder right ahead of a closing parenthesis is all that is paired there. -/
theorem Paired.eq_place {value : Value} {body after rest : List Token} (paired : Paired body)
    (same : body ++ .closing :: after = .place value :: .closing :: rest) :
    body = [.place value] := by
  cases body with
  | nil => cases same
  | cons first more =>
      obtain ⟨rfl, rest⟩ := List.cons.inj same
      cases more with
      | nil => rfl
      | cons second others =>
          obtain ⟨rfl, _⟩ := List.cons.inj rest
          -- A parenthesis would be closed here that has not been opened.
          have opened := paired.opened [.place value, .closing] ⟨others, rfl⟩
          simp [depth] at opened

end Token

/-! ## Frames with minus signs -/

/-- The item is a minus sign. -/
def Item.isMinus : Item Token Phrase → Bool
  | .symbol (.operator .subtract) => true
  | _ => false

namespace Frame

/-- Only behind a minus sign a part stands where something tighter than a negation does. -/
def Tidy : (minus : Bool) → Frame → Prop
  | _, [] => True
  | _, .symbol token :: rest => Tidy (Item.symbol token).isMinus rest
  | minus, .part place _ :: rest => (place = .above .unary → minus = true) ∧ Tidy false rest

variable {minus minus' : Bool} {frame left right : Frame}

theorem Tidy.mono (tidy : Tidy minus frame) (more : minus = true → minus' = true) :
    Tidy minus' frame := by
  cases frame with
  | nil => trivial
  | cons item rest =>
      cases item with
      | symbol token => exact tidy
      | part place phrase => exact ⟨fun above => more (tidy.1 above), tidy.2⟩

theorem Tidy.behind_symbol {token : Token} (tidy : Tidy minus (.symbol token :: frame)) :
    Tidy true frame :=
  Tidy.mono (show Tidy (Item.symbol token).isMinus frame from tidy) fun _ => rfl

theorem Tidy.grouped {place : Place} {phrase : Phrase}
    (tidy : Tidy minus (.part place phrase :: frame)) :
    Tidy minus' (.part .anywhere phrase :: .symbol .closing :: frame) :=
  ⟨nofun, tidy.2⟩

theorem Tidy.append (first : Tidy minus left) (second : Tidy false right) :
    Tidy minus (left ++ right) := by
  induction left generalizing minus with
  | nil => exact second.mono nofun
  | cons item rest ih =>
      cases item with
      | symbol token => exact ih first
      | part place phrase => exact ⟨first.1, ih first.2⟩

theorem tidy_of_not_mem (loose : ∀ phrase, .part (.above .unary) phrase ∉ frame) :
    Tidy minus frame := by
  induction frame generalizing minus with
  | nil => trivial
  | cons item rest ih =>
      have restTidy (minus : Bool) : Tidy minus rest :=
        ih fun phrase member => loose phrase (List.mem_cons_of_mem item member)
      cases item with
      | symbol token => exact restTidy _
      | part place phrase =>
          refine ⟨?_, restTidy false⟩
          rintro rfl
          exact (loose phrase List.mem_cons_self).elim

@[simp] theorem part_mem_symbols {place : Place} {phrase : Phrase} {tokens : List Token} :
    .part place phrase ∉ symbols tokens := by
  simp [symbols]

@[simp] theorem part_mem_enclosed {place : Place} {phrase : Phrase} {body : Frame} :
    .part place phrase ∈ enclosed body ↔ .part place phrase ∈ body := by
  simp [enclosed]

@[simp] theorem part_mem_clause {place : Place} {phrase : Phrase} {keyword : Keyword}
    {items : List Frame} :
    .part place phrase ∈ clause keyword items ↔ ∃ item ∈ items, .part place phrase ∈ item := by
  cases items with
  | nil => simp [clause]
  | cons item rest =>
      rw [← Item.part_mem_separated Token.comma]
      simp [clause]

end Frame

theorem Phrase.part_mem_orderFrame {place : Place} {phrase : Phrase} {item : OrderItem Phrase} :
    .part place phrase ∈ orderFrame item ↔ place = .anywhere ∧ phrase = item.expr := by
  cases found : item.descending <;> simp [orderFrame, found]

theorem Phrase.part_mem_otherwiseFrame {place : Place} {phrase : Phrase}
    {otherwise : Option Phrase} :
    .part place phrase ∈ otherwiseFrame otherwise ↔ place = .anywhere ∧ phrase ∈ otherwise := by
  cases otherwise <;> simp [otherwiseFrame, eq_comm]

/-- The frame of a phrase is tidy. -/
theorem Phrase.tidy_frame (dialect : Dialect) (phrase : Phrase) :
    (phrase.frame dialect).Tidy false := by
  cases phrase with
  | negate operand => exact ⟨fun _ => rfl, trivial⟩
  | binary operator left right =>
      apply Frame.tidy_of_not_mem
      rw [frame]
      split
      · simp
      · cases operator <;> simp [BinaryOperator.precedence]
  | call function distinct arguments =>
      apply Frame.tidy_of_not_mem
      cases distinct <;> simp [frame]
  | _ =>
      apply Frame.tidy_of_not_mem
      simp [frame, branchFrame, part_mem_orderFrame, part_mem_otherwiseFrame]

/-! ## Two derivations from one frame -/

/-- A phrase needs parentheses in a place that it does not fit.  An argument that is exempt may
have them behind a minus sign, too. -/
def Sparing (fits : Place → Phrase → Prop) (exempt : Value → Prop) (place : Place)
    (phrase : Phrase) : Prop :=
  fits place phrase → place = .above .unary ∧ ∃ value, exempt value ∧ phrase = .place value

namespace Derives

open Token

variable {dialect : Dialect} {fits groups : Place → Phrase → Prop} {exempt : Value → Prop}
variable {place : Place} {phrase : Phrase} {frame rest : Frame}
variable {tokens other before body after : List Token}

/-- What is derived in some place is derived anywhere. -/
theorem loosen (anywhere : ∀ phrase, fits .anywhere phrase)
    (derives : Derives dialect fits (fun _ _ => True) (.part place phrase :: rest) tokens) :
    Derives dialect fits (fun _ _ => True) (.part .anywhere phrase :: rest) tokens := by
  cases derives with
  | expand _ derives => exact .expand (anywhere phrase) derives
  | group _ derives => exact .group trivial derives

/-- A parenthesis may be closed behind what is derived by itself. -/
theorem closing (anywhere : ∀ phrase, fits .anywhere phrase)
    (derives : Derives dialect fits groups (phrase.frame dialect ++ rest) tokens) :
    ∃ closed, lead closed = lead tokens ∧
      Derives dialect fits groups (.part .anywhere phrase :: .symbol .closing :: rest) closed := by
  obtain ⟨own, others, rfl, ownDerives, later⟩ := derives.split
  exact ⟨own ++ .closing :: others, lead_append_closing own others,
    .expand (anywhere phrase) (ownDerives.append (.symbol .closing later))⟩

/-- Nowhere else there are fewer parentheses ahead. -/
theorem lead_le (anywhere : ∀ phrase, fits .anywhere phrase) (tidy : frame.Tidy false)
    (derives : Derives dialect fits (Sparing fits exempt) frame tokens)
    (reads : Derives dialect fits (fun _ _ => True) frame other) : lead tokens ≤ lead other := by
  induction reads generalizing tokens with
  | nil =>
      cases derives
      exact Nat.le_refl _
  | symbol token _ ih =>
      cases derives with
      | symbol _ derives =>
          cases token with
          | opening => exact Nat.succ_le_succ (ih tidy derives)
          | closing =>
              rw [lead_closing, lead_closing]
              exact ih tidy derives
          | _ => exact Nat.zero_le _
  | @expand place phrase _ _ fit _ ih =>
      cases derives with
      | expand _ derives => exact ih ((phrase.tidy_frame dialect).append tidy.2) derives
      | group grouped _ => cases tidy.1 (grouped fit).1
  | @group place phrase rest _ _ _ ih =>
      rw [lead_opening]
      cases derives with
      | group _ derives => exact Nat.succ_le_succ (ih tidy.grouped derives)
      | expand _ derives =>
          obtain ⟨closed, same, derives⟩ := derives.closing anywhere
          have bound := ih tidy.grouped derives
          omega

/-- Of an argument in parentheses, nothing else stands in them. -/
theorem eq_place {value : Value} (anywhere : ∀ phrase, fits .anywhere phrase)
    (paired : Paired body)
    (derives : Derives dialect fits (Sparing fits exempt)
      (.part .anywhere (.place value) :: .symbol .closing :: rest) (body ++ .closing :: after)) :
    body = [.place value] := by
  generalize same : body ++ .closing :: after = inside at derives
  cases derives with
  | group grouped _ => cases (grouped (anywhere _)).1
  | expand _ derives =>
      cases derives with
      | symbol _ derives =>
          cases derives with
          | symbol _ _ => exact paired.eq_place same

/-- Behind nothing but a minus sign, only an exempt argument may lose its parentheses. -/
theorem first_pair (anywhere : ∀ phrase, fits .anywhere phrase) (tidy : frame.Tidy true)
    (paired : Paired body)
    (derives : Derives dialect fits (Sparing fits exempt) frame
      (.opening :: (body ++ .closing :: after)))
    (reads : Derives dialect fits (fun _ _ => True) frame (body ++ after)) :
    ∃ value, exempt value ∧ body = [.place value] := by
  -- One more parenthesis is ahead than without the pair.
  have tooMany {frame : Frame}
      (derives : Derives dialect fits (Sparing fits exempt) frame
        (.opening :: (body ++ .closing :: after)))
      (reads : Derives dialect fits (fun _ _ => True) frame (body ++ after))
      (tidy : frame.Tidy false) : False := by
    have bound := lead_le anywhere tidy derives reads
    rw [lead_opening, lead_append_closing] at bound
    exact Nat.not_succ_le_self _ bound
  cases frame with
  | nil => exact (tooMany derives reads trivial).elim
  | cons item rest =>
      cases item with
      | symbol token => exact (tooMany derives reads tidy).elim
      | part place phrase =>
          have inner : Frame.Tidy false (.part .anywhere phrase :: rest) := ⟨nofun, tidy.2⟩
          cases derives with
          | expand _ derives =>
              exact (tooMany (.expand (anywhere phrase) derives)
                (reads.loosen anywhere) inner).elim
          | group grouped derives =>
              generalize whole : body ++ after = others at reads
              cases reads with
              | expand fit _ =>
                  obtain ⟨_, value, exempted, rfl⟩ := grouped fit
                  exact ⟨value, exempted, derives.eq_place anywhere paired⟩
              | group _ reads =>
                  have bound := lead_le anywhere tidy.grouped derives reads
                  rw [lead_append_closing, whole, lead_opening] at bound
                  exact (Nat.not_succ_le_self _ bound).elim

/-- A pair of parentheses that may be left out stands around an exempt argument. -/
theorem around_place (anywhere : ∀ phrase, fits .anywhere phrase) (tidy : frame.Tidy true)
    (paired : Paired body)
    (derives : Derives dialect fits (Sparing fits exempt) frame
      (before ++ .opening :: (body ++ .closing :: after)))
    (reads : Derives dialect fits (fun _ _ => True) frame (before ++ body ++ after)) :
    ∃ value, exempt value ∧ body = [.place value] := by
  generalize whole : before ++ .opening :: (body ++ .closing :: after) = tokens at derives
  induction derives generalizing before with
  | nil => simp at whole
  | @symbol token rest _ derives ih =>
      cases before with
      | nil =>
          rw [List.nil_append] at whole reads
          exact first_pair anywhere tidy paired (whole ▸ .symbol _ derives) reads
      | cons head more =>
          obtain ⟨rfl, later⟩ := List.cons.inj whole
          cases reads with
          | symbol _ reads => exact ih tidy.behind_symbol reads later
  | @expand place phrase rest _ fit derives ih =>
      subst whole
      have inner : Frame.Tidy true (phrase.frame dialect ++ rest) :=
        ((phrase.tidy_frame dialect).append tidy.2).mono nofun
      generalize deleted : before ++ body ++ after = others at reads
      cases reads with
      | expand _ reads =>
          subst deleted
          exact ih inner reads rfl
      | group _ reads =>
          -- Then there were more parentheses ahead without the pair.
          obtain ⟨closed, same, derives⟩ := derives.closing anywhere
          have bound := lead_le anywhere tidy.grouped derives reads
          have fewer := lead_delete_le before body after
          rw [deleted, lead_opening] at fewer
          omega
  | @group place phrase rest _ grouped derives ih =>
      cases before with
      | nil =>
          rw [List.nil_append] at whole reads
          exact first_pair anywhere tidy paired (whole ▸ .group grouped derives) reads
      | cons head more =>
          obtain ⟨rfl, inside⟩ := List.cons.inj whole
          cases reads with
          | group _ reads => exact ih tidy.grouped reads inside
          | expand fit reads =>
              obtain ⟨_, value, _, rfl⟩ := grouped fit
              cases reads

end Derives

end SqlSelect
