import SqlSelect.Proofs.Grammar.Derivation
import SqlSelect.Proofs.Grammar.RoundTrip

/-!
# The grammar with NOT at either level

A phrase is read where its frame derives the tokens, with parentheses wherever they are put.
With NOT at the level of a minus sign this is the grammar of expressions, so that at the
other level it is the same grammar, but for how tightly NOT binds.
-/

namespace SqlSelect

/-- The frame derives the tokens, with NOT at a level and parentheses around any part. -/
abbrev DerivesAt (dialect : Dialect) (level : NotLevel) : Frame → List Token → Prop :=
  Derives dialect (Phrase.Fits dialect level) (fun _ _ => True)

/-- The tokens are read as the phrase in a place, with NOT at a level. -/
def ReadsAt (dialect : Dialect) (level : NotLevel) (place : Place) (tokens : List Token)
    (phrase : Phrase) : Prop :=
  DerivesAt dialect level [.part place phrase] tokens

namespace ReadsAt

variable {dialect : Dialect} {level : NotLevel} {place : Place}
variable {tokens : List Token} {phrase : Phrase}

theorem of_frame (fits : phrase.Fits dialect level place)
    (derives : DerivesAt dialect level (phrase.frame dialect) tokens) :
    ReadsAt dialect level place tokens phrase :=
  .expand fits (by rwa [List.append_nil])

/-- What is read in a place is read wherever no more is asked for. -/
theorem loosen (reads : ReadsAt dialect level place tokens phrase) (target : Place)
    (looser : target.rank level ≤ place.rank level) :
    ReadsAt dialect level target tokens phrase := by
  cases reads with
  | expand fits derives => exact .expand (Nat.le_trans looser fits) derives
  | group _ derives => exact .group trivial derives

theorem enclosed (reads : ReadsAt dialect level .anywhere tokens phrase) :
    ReadsAt dialect level place (Token.enclosed tokens) phrase :=
  Derives.group trivial (Derives.append reads (.symbol .closing .nil))

end ReadsAt

/-! ## Lists of readings -/

namespace Reading

variable {dialect : Dialect} {level : NotLevel}

theorem parts {items : List Reading}
    (reads : ∀ item ∈ items, ReadsAt dialect level .anywhere item.tokens item.phrase) :
    List.Forall₂ (DerivesAt dialect level)
      ((items.map Reading.phrase).map fun phrase => [.part .anywhere phrase])
      (items.map Reading.tokens) := by
  rw [List.map_map, List.forall₂_map_left_iff, List.forall₂_map_right_iff]
  exact List.forall₂_same.mpr reads

theorem listed {items : List Reading}
    (reads : ∀ item ∈ items, ReadsAt dialect level .anywhere item.tokens item.phrase) :
    DerivesAt dialect level (Item.listed .comma (items.map Reading.phrase))
      (Token.separated (items.map Reading.tokens)) :=
  .separated (parts reads)

theorem orderItems {items : List (OrderItem Reading)}
    (reads : ∀ item ∈ items, ReadsAt dialect level .anywhere item.expr.tokens item.expr.phrase) :
    List.Forall₂ (DerivesAt dialect level)
      ((items.map fun item => (⟨item.expr.phrase, item.descending⟩ : OrderItem Phrase)).map
        Phrase.orderFrame)
      (items.map Reading.orderTokens) := by
  rw [List.map_map, List.forall₂_map_left_iff, List.forall₂_map_right_iff]
  apply List.forall₂_same.mpr
  intro item member
  apply Derives.part (reads item member)
  cases item.descending
  · exact .nil
  · exact .symbol _ .nil

theorem branches {items : List (Branch Reading)}
    (conditions : ∀ branch ∈ items,
      ReadsAt dialect level .anywhere branch.condition.tokens branch.condition.phrase)
    (results : ∀ branch ∈ items,
      ReadsAt dialect level .anywhere branch.result.tokens branch.result.phrase) :
    DerivesAt dialect level
      ((items.map fun branch => (⟨branch.condition.phrase, branch.result.phrase⟩ :
        Branch Phrase)).flatMap Phrase.branchFrame)
      (items.flatMap Reading.branchTokens) := by
  induction items with
  | nil => exact .nil
  | cons branch rest ih =>
      rw [List.forall_mem_cons] at conditions results
      exact Derives.append (.symbol _ (.part conditions.1 (.symbol _ results.1)))
        (ih conditions.2 results.2)

theorem otherwise {found : Option Reading}
    (reads : ∀ result ∈ found, ReadsAt dialect level .anywhere result.tokens result.phrase) :
    DerivesAt dialect level (Phrase.otherwiseFrame (found.map Reading.phrase))
      (Reading.otherwiseTokens found) := by
  cases found with
  | none => exact .nil
  | some result => exact .symbol _ (reads result rfl)

end Reading

/-- What the grammar of expressions reads is read with NOT at the level of a minus sign. -/
theorem Reads.readsAt {dialect : Dialect} {precedence : Precedence} {tokens : List Token}
    {phrase : Phrase} (reads : Reads dialect .declared precedence tokens phrase) :
    ReadsAt dialect .declared (.atLeast precedence) tokens phrase := by
  -- A place that asks for the loosest precedence asks for nothing.
  have free {tokens : List Token} {phrase : Phrase}
      (reads : ReadsAt dialect .declared (.atLeast .or) tokens phrase) :
      ReadsAt dialect .declared .anywhere tokens phrase := reads.loosen .anywhere (Nat.le_refl 0)
  induction reads with
  | @tighter level _ _ _ ih => exact ih.loosen _ (by cases level <;> decide)
  | binary operator member known _ _ leftIh rightIh =>
      obtain rfl := Precedence.mem_operators.mp member
      have infixed : ¬ (operator = .concat ∧ dialect.concatOperator? = none) := by
        rintro ⟨rfl, none⟩
        simp [none] at known
      have right := rightIh.loosen (.above operator.precedence)
        (by cases operator <;> decide)
      refine .of_frame ?_ ?_
      · simp [Phrase.Fits, Phrase.rank, Phrase.precedence, infixed, Place.rank]
      · rw [Phrase.frame, if_neg infixed]
        exact .part leftIh (.symbol _ right)
  | between negated _ _ _ operandIh lowIh highIh =>
      have derives := Derives.part (operandIh.loosen (.above .predicate) (by decide))
        ((Derives.symbols (Token.negation negated)).append
          (.symbol (.keyword .between) (.part lowIh (.symbol (.operator .and) highIh))))
      exact .of_frame (Nat.le_refl _) (by simpa [Phrase.frame] using derives)
  | like negated _ _ operandIh patternIh =>
      have derives := Derives.part (operandIh.loosen (.above .predicate) (by decide))
        ((Derives.symbols (Token.negation negated)).append
          (.symbol (.keyword .like) patternIh))
      exact .of_frame (Nat.le_refl _) (by simpa [Phrase.frame] using derives)
  | inList negated items _ _ operandIh itemsIh =>
      have derives := Derives.part (operandIh.loosen (.above .predicate) (by decide))
        ((Derives.symbols (Token.negation negated)).append
          (.symbol (.keyword .isIn)
            (.enclosed (Reading.listed fun item member => free (itemsIh item member)))))
      exact .of_frame (Nat.le_refl _) (by simpa [Phrase.frame] using derives)
  | inQuery negated pieces _ operandIh =>
      have derives := Derives.part (operandIh.loosen (.above .predicate) (by decide))
        ((Derives.symbols (Token.negation negated)).append
          (.symbol (.keyword .isIn) (.symbol (.query pieces) .nil)))
      exact .of_frame (Nat.le_refl _) (by simpa [Phrase.frame] using derives)
  | «exists» negated pieces =>
      exact .of_frame (by cases negated <;> exact Nat.le_refl _)
        ((Derives.symbols (Token.negation negated)).append
          (Derives.symbols [.keyword .exists, .query pieces]))
  | isNull negated _ operandIh =>
      have derives := Derives.part (operandIh.loosen (.above .predicate) (by decide))
        (.symbol (.keyword .is) ((Derives.symbols (Token.negation negated)).append
          (.symbol (.keyword .null) .nil)))
      exact .of_frame (Nat.le_refl _) (by simpa [Phrase.frame] using derives)
  | not _ _ ih =>
      exact .of_frame (Nat.le_refl _) (.symbol _ (ih.loosen .negated (by decide)))
  | negate _ ih =>
      exact .of_frame (Nat.le_refl _) (.symbol _ (ih.loosen (.above .unary) (by decide)))
  | place _ | leaf _ | query _ => exact .of_frame (Nat.le_refl _) (.symbol _ .nil)
  | group _ ih => exact (free ih).enclosed
  | call function distinct arguments _ ih =>
      have derives := Reading.listed fun item member => free (ih item member)
      refine .of_frame (Nat.le_refl _) (.symbol _ (.enclosed ?_))
      cases distinct
      · exact derives
      · exact .symbol _ derives
  | countAll => exact .of_frame (Nat.le_refl _) (.symbol _ (.enclosed (.symbol _ .nil)))
  | concat missing _ _ leftIh rightIh =>
      have derives := Derives.part (free leftIh) (.symbol .comma (free rightIh))
      refine .of_frame ?_ ?_
      · simp [Phrase.Fits, Phrase.rank, Phrase.precedence, missing, Place.rank]
      · rw [Phrase.frame, if_pos ⟨rfl, missing⟩]
        exact .symbol _ (.enclosed derives)
  | cast type _ ih =>
      have derives := Derives.part (free ih)
        (Derives.symbols [.keyword .asType, .leaf type])
      exact .of_frame (Nat.le_refl _) (.symbol _ (.enclosed derives))
  | window function arguments partition order _ _ _ argumentsIh partitionIh orderIh =>
      have argumentsDerive := Reading.listed
        fun item member => free (argumentsIh item member)
      have partitionDerives := Derives.clause .partition
        (Reading.parts fun item member => free (partitionIh item member))
      have orderDerives := Derives.clause .order
        (Reading.orderItems fun item member => free (orderIh item member))
      exact .of_frame (Nat.le_refl _) (.symbol _ (argumentsDerive.enclosed.append
        (.symbol _ (.enclosed (partitionDerives.append orderDerives)))))
  | case branches otherwise _ _ _ conditionsIh resultsIh otherwiseIh =>
      have branchesDerive := Reading.branches
        (fun branch member => free (conditionsIh branch member))
        (fun branch member => free (resultsIh branch member))
      have otherwiseDerives := Reading.otherwise
        fun result member => free (otherwiseIh result member)
      exact .of_frame (Nat.le_refl _) (.symbol _
        ((branchesDerive.append otherwiseDerives).append (.symbol _ .nil)))

/-! ## Frames read part by part -/

/-- The symbols of a frame stand in the tokens, and every part is read between them. -/
def Frame.Reads (reads : Place → List Token → Phrase → Prop) : Frame → List Token → Prop
  | [], tokens => tokens = []
  | .symbol token :: rest, tokens =>
    ∃ more, tokens = token :: more ∧ Frame.Reads reads rest more
  | .part place phrase :: rest, tokens =>
    ∃ own more, tokens = own ++ more ∧ reads place own phrase ∧ Frame.Reads reads rest more

namespace Frame.Reads

variable {reads : Place → List Token → Phrase → Prop} {left right body : Frame}
variable {tokens : List Token}

theorem append_iff :
    Frame.Reads reads (left ++ right) tokens ↔
      ∃ own more, tokens = own ++ more ∧ Frame.Reads reads left own ∧
        Frame.Reads reads right more := by
  induction left generalizing tokens with
  | nil => simp [Frame.Reads]
  | cons item rest ih =>
      cases item with
      | symbol token =>
          simp only [List.cons_append, Frame.Reads, ih]
          constructor
          · rintro ⟨_, rfl, own, more, rfl, first, second⟩
            exact ⟨token :: own, more, rfl, ⟨own, rfl, first⟩, second⟩
          · rintro ⟨_, more, rfl, ⟨own, rfl, first⟩, second⟩
            exact ⟨own ++ more, rfl, own, more, rfl, first, second⟩
      | part place phrase =>
          simp only [List.cons_append, Frame.Reads, ih]
          constructor
          · rintro ⟨part, _, rfl, partReads, own, more, rfl, first, second⟩
            exact ⟨part ++ own, more, by rw [List.append_assoc], ⟨part, own, rfl, partReads, first⟩,
              second⟩
          · rintro ⟨_, more, rfl, ⟨part, own, rfl, partReads, first⟩, second⟩
            exact ⟨part, own ++ more, by rw [List.append_assoc], partReads, own, more, rfl, first,
              second⟩

theorem symbols_iff {symbols : List Token} :
    Frame.Reads reads (Frame.symbols symbols) tokens ↔ tokens = symbols := by
  induction symbols generalizing tokens with
  | nil => rfl
  | cons symbol rest ih =>
      have split : Frame.symbols (symbol :: rest) = .symbol symbol :: Frame.symbols rest := rfl
      simp [split, Frame.Reads, ih]

theorem enclosed_iff :
    Frame.Reads reads (Frame.enclosed body) tokens ↔
      ∃ inner, tokens = Token.enclosed inner ∧ Frame.Reads reads body inner := by
  rw [Frame.enclosed, List.cons_append, Frame.Reads]
  simp only [append_iff, Frame.Reads]
  constructor
  · rintro ⟨_, rfl, inner, _, rfl, inside, _, rfl, rfl⟩
    exact ⟨inner, rfl, inside⟩
  · rintro ⟨inner, rfl, inside⟩
    exact ⟨_, rfl, inner, _, rfl, inside, _, rfl, rfl⟩

theorem separated_iff {items : List Frame} :
    Frame.Reads reads (Item.separated .comma items) tokens ↔
      ∃ lists, List.Forall₂ (Frame.Reads reads) items lists ∧ tokens = Token.separated lists := by
  induction items generalizing tokens with
  | nil => simp [Item.separated, Frame.Reads, Token.separated]
  | cons item rest ih =>
      cases rest with
      | nil =>
          constructor
          · intro read
            exact ⟨[tokens], .cons read .nil, rfl⟩
          · rintro ⟨_, _ | ⟨read, ⟨⟩⟩, rfl⟩
            exact read
      | cons second others =>
          rw [Item.separated_cons_cons, append_iff]
          simp only [Frame.Reads, ih]
          constructor
          · rintro ⟨own, _, rfl, read, _, rfl, lists, others, rfl⟩
            cases others with
            | cons next others =>
                exact ⟨own :: _ :: _, .cons read (.cons next others), rfl⟩
          · rintro ⟨_, _ | ⟨read, _ | ⟨next, others⟩⟩, rfl⟩
            exact ⟨_, _, rfl, read, _, rfl, _, .cons next others, rfl⟩

theorem clause_iff {keyword : Keyword} {items : List Frame} :
    Frame.Reads reads (Frame.clause keyword items) tokens ↔
      ∃ lists, List.Forall₂ (Frame.Reads reads) items lists ∧
        tokens = Token.clause keyword lists := by
  cases items with
  | nil => simp [Frame.clause, Frame.Reads, Token.clause]
  | cons item rest =>
      have written : Frame.clause keyword (item :: rest) =
          .symbol (.keyword keyword) :: .symbol (.keyword .by) ::
            Item.separated .comma (item :: rest) := rfl
      rw [written]
      simp only [Frame.Reads, separated_iff]
      constructor
      · rintro ⟨_, rfl, _, rfl, _, _ | ⟨first, others⟩, rfl⟩
        exact ⟨_, .cons first others, rfl⟩
      · rintro ⟨_, _ | ⟨first, others⟩, rfl⟩
        exact ⟨_, rfl, _, rfl, _, .cons first others, rfl⟩

theorem exists_readings {phrases : List Phrase} {lists : List (List Token)}
    (parts : List.Forall₂ (Frame.Reads reads)
      (phrases.map fun phrase => [.part .anywhere phrase]) lists) :
    ∃ items : List Reading, phrases = items.map Reading.phrase ∧
      lists = items.map Reading.tokens ∧
        ∀ item ∈ items, reads .anywhere item.tokens item.phrase := by
  induction phrases generalizing lists with
  | nil =>
      cases parts
      exact ⟨[], rfl, rfl, nofun⟩
  | cons phrase rest ih =>
      obtain _ | ⟨⟨own, _, rfl, read, rfl⟩, others⟩ := parts
      obtain ⟨items, rfl, rfl, itemsRead⟩ := ih others
      refine ⟨⟨own, phrase⟩ :: items, rfl, by simp, ?_⟩
      rw [List.forall_mem_cons]
      exact ⟨read, itemsRead⟩

theorem exists_orderReadings {order : List (OrderItem Phrase)} {lists : List (List Token)}
    (parts : List.Forall₂ (Frame.Reads reads) (order.map Phrase.orderFrame) lists) :
    ∃ items : List (OrderItem Reading),
      order = (items.map fun item => ⟨item.expr.phrase, item.descending⟩) ∧
        lists = items.map Reading.orderTokens ∧
          ∀ item ∈ items, reads .anywhere item.expr.tokens item.expr.phrase := by
  induction order generalizing lists with
  | nil =>
      cases parts
      exact ⟨[], rfl, rfl, nofun⟩
  | cons entry rest ih =>
      obtain ⟨phrase, descending⟩ := entry
      obtain _ | ⟨⟨own, more, rfl, read, direction⟩, others⟩ := parts
      obtain ⟨items, rfl, rfl, itemsRead⟩ := ih others
      refine ⟨⟨⟨own, phrase⟩, descending⟩ :: items, rfl, ?_, ?_⟩
      · cases descending with
        | false =>
            cases direction
            rfl
        | true =>
            obtain ⟨_, rfl, rfl⟩ := direction
            rfl
      · rw [List.forall_mem_cons]
        exact ⟨read, itemsRead⟩

theorem exists_branchReadings {branches : List (Branch Phrase)}
    (parts : Frame.Reads reads (branches.flatMap Phrase.branchFrame) tokens) :
    ∃ items : List (Branch Reading),
      branches = (items.map fun branch => ⟨branch.condition.phrase, branch.result.phrase⟩) ∧
        tokens = items.flatMap Reading.branchTokens ∧
          ∀ branch ∈ items,
            reads .anywhere branch.condition.tokens branch.condition.phrase ∧
              reads .anywhere branch.result.tokens branch.result.phrase := by
  induction branches generalizing tokens with
  | nil => exact ⟨[], rfl, parts, nofun⟩
  | cons branch rest ih =>
      rw [List.flatMap_cons, append_iff] at parts
      obtain ⟨_, more, rfl, ⟨_, rfl, condition, _, rfl, conditionRead, _, rfl, result, _, rfl,
        resultRead, rfl⟩, others⟩ := parts
      obtain ⟨items, rfl, rfl, itemsRead⟩ := ih others
      refine ⟨⟨⟨condition, branch.condition⟩, ⟨result, branch.result⟩⟩ :: items, rfl, ?_, ?_⟩
      · simp [Reading.branchTokens]
      · rw [List.forall_mem_cons]
        exact ⟨⟨conditionRead, resultRead⟩, itemsRead⟩

theorem exists_otherwiseReading {otherwise : Option Phrase}
    (part : Frame.Reads reads (Phrase.otherwiseFrame otherwise) tokens) :
    ∃ found : Option Reading, otherwise = found.map Reading.phrase ∧
      tokens = Reading.otherwiseTokens found ∧
        ∀ result ∈ found, reads .anywhere result.tokens result.phrase := by
  cases otherwise with
  | none => exact ⟨none, rfl, part, nofun⟩
  | some phrase =>
      obtain ⟨_, rfl, own, _, rfl, read, rfl⟩ := part
      refine ⟨some ⟨own, phrase⟩, rfl, by simp [Reading.otherwiseTokens], ?_⟩
      rintro _ ⟨⟩
      exact read

end Frame.Reads

/-- The precedence that a place asks for. -/
def Place.precedence (notLevel : NotLevel) : Place → Precedence
  | .anywhere => .or
  | .atLeast precedence => precedence
  | .above precedence => precedence.tighter
  | .negated => notLevel.precedence

theorem Phrase.rank_le (dialect : Dialect) (notLevel : NotLevel) (phrase : Phrase) :
    phrase.rank dialect notLevel ≤ 2 * (phrase.precedence dialect notLevel).level := by
  cases phrase with
  | «exists» negated _ => cases negated <;> cases notLevel <;> exact Nat.le_of_ble_eq_true rfl
  | _ => exact Nat.le_refl _

theorem Phrase.level_le_of_fits {dialect : Dialect} {notLevel : NotLevel} {place : Place}
    {phrase : Phrase} (fits : phrase.Fits dialect notLevel place) :
    (place.precedence notLevel).level ≤ (phrase.precedence dialect notLevel).level := by
  have bound := Nat.le_trans fits (phrase.rank_le dialect notLevel)
  cases place with
  | anywhere => exact Nat.zero_le _
  | atLeast precedence => exact Nat.le_of_mul_le_mul_left bound Nat.two_pos
  | above precedence =>
      have next : precedence.tighter.level ≤ precedence.level + 1 := by
        cases precedence <;> decide
      rw [Place.rank] at bound
      rw [Place.precedence]
      omega
  | negated => exact Nat.le_of_mul_le_mul_left bound Nat.two_pos

/-- The tokens are read as the phrase in a place by the grammar.  Behind NOT they do not start
with the word EXISTS, which would belong to it. -/
structure Place.Reads (dialect : Dialect) (notLevel : NotLevel) (place : Place)
    (tokens : List Token) (phrase : Phrase) : Prop where
  reads : SqlSelect.Reads dialect notLevel (place.precedence notLevel) tokens phrase
  affirmed : place = .negated → .keyword .exists ∉ tokens.head?

open Frame.Reads in
/-- A frame whose parts are read in their places is read as its phrase. -/
theorem Phrase.reads_of_frame {dialect : Dialect} {notLevel : NotLevel} {phrase : Phrase}
    {tokens : List Token}
    (read : Frame.Reads (Place.Reads dialect notLevel) (phrase.frame dialect) tokens) :
    SqlSelect.Reads dialect notLevel (phrase.precedence dialect notLevel) tokens phrase := by
  cases phrase with
  | place value =>
      obtain ⟨_, rfl, rfl⟩ := read
      exact .place value
  | leaf text =>
      obtain ⟨_, rfl, rfl⟩ := read
      exact .leaf text
  | query pieces =>
      obtain ⟨_, rfl, rfl⟩ := read
      exact .query pieces
  | not operand =>
      obtain ⟨_, rfl, own, _, rfl, operandRead, rfl⟩ := read
      rw [List.append_nil]
      exact .not (operandRead.affirmed rfl) operandRead.reads
  | negate operand =>
      obtain ⟨_, rfl, own, _, rfl, operandRead, rfl⟩ := read
      rw [List.append_nil]
      exact .negate operandRead.reads
  | binary operator left right =>
      by_cases called : operator = .concat ∧ dialect.concatOperator? = none
      · obtain ⟨rfl, missing⟩ := called
        rw [frame, if_pos ⟨rfl, missing⟩] at read
        obtain ⟨_, rfl, read⟩ := read
        obtain ⟨_, rfl, own, _, rfl, leftRead, _, rfl, other, _, rfl, rightRead, rfl⟩ :=
          enclosed_iff.mp read
        rw [precedence, if_pos ⟨rfl, missing⟩, List.append_nil]
        exact .concat missing leftRead.reads rightRead.reads
      · rw [frame, if_neg called] at read
        obtain ⟨own, _, rfl, leftRead, _, rfl, other, _, rfl, rightRead, rfl⟩ := read
        rw [precedence, if_neg called, List.append_nil]
        refine .binary operator (Precedence.mem_operators.mpr rfl) ?_ leftRead.reads rightRead.reads
        rintro rfl
        rw [← Option.ne_none_iff_isSome]
        exact fun none => called ⟨rfl, none⟩
  | between negated operand low high =>
      rw [frame, List.cons_append] at read
      obtain ⟨own, _, rfl, operandRead, rest⟩ := read
      obtain ⟨_, _, rfl, words, _, rfl, lows, _, rfl, lowRead, _, rfl, highs, _, rfl, highRead,
        rfl⟩ := append_iff.mp rest
      rw [symbols_iff.mp words, List.append_nil, precedence]
      have whole := SqlSelect.Reads.between negated operandRead.reads lowRead.reads highRead.reads
      simpa using whole
  | like negated operand pattern =>
      rw [frame, List.cons_append] at read
      obtain ⟨own, _, rfl, operandRead, rest⟩ := read
      obtain ⟨_, _, rfl, words, _, rfl, patterns, _, rfl, patternRead, rfl⟩ := append_iff.mp rest
      rw [symbols_iff.mp words, List.append_nil, precedence]
      have whole := SqlSelect.Reads.like negated operandRead.reads patternRead.reads
      simpa using whole
  | inList negated operand items =>
      rw [frame, List.cons_append] at read
      obtain ⟨own, _, rfl, operandRead, rest⟩ := read
      obtain ⟨_, _, rfl, words, _, rfl, list⟩ := append_iff.mp rest
      obtain ⟨_, rfl, inside⟩ := enclosed_iff.mp list
      obtain ⟨_, parts, rfl⟩ := separated_iff.mp inside
      obtain ⟨readings, rfl, rfl, itemsRead⟩ := exists_readings parts
      rw [symbols_iff.mp words, precedence]
      have whole := SqlSelect.Reads.inList negated readings operandRead.reads
        fun item member => (itemsRead item member).reads
      simpa using whole
  | inQuery negated operand pieces =>
      rw [frame, List.cons_append] at read
      obtain ⟨own, _, rfl, operandRead, rest⟩ := read
      obtain ⟨_, _, rfl, words, _, rfl, _, rfl, rfl⟩ := append_iff.mp rest
      rw [symbols_iff.mp words, precedence]
      have whole := SqlSelect.Reads.inQuery negated pieces operandRead.reads
      simpa using whole
  | «exists» negated pieces =>
      obtain ⟨_, _, rfl, words, _, rfl, _, rfl, rfl⟩ := append_iff.mp read
      rw [symbols_iff.mp words]
      exact .exists negated pieces
  | isNull negated operand =>
      rw [frame, List.cons_append, List.cons_append] at read
      obtain ⟨own, _, rfl, operandRead, _, rfl, rest⟩ := read
      obtain ⟨_, _, rfl, words, _, rfl, rfl⟩ := append_iff.mp rest
      rw [symbols_iff.mp words, precedence]
      have whole := SqlSelect.Reads.isNull negated operandRead.reads
      simpa using whole
  | call function distinct arguments =>
      obtain ⟨_, rfl, call⟩ := read
      obtain ⟨_, rfl, inside⟩ := enclosed_iff.mp call
      obtain ⟨_, _, rfl, words, list⟩ := append_iff.mp inside
      obtain ⟨_, parts, rfl⟩ := separated_iff.mp list
      obtain ⟨readings, rfl, rfl, argumentsRead⟩ := exists_readings parts
      have whole := SqlSelect.Reads.call function distinct readings
        fun item member => (argumentsRead item member).reads
      cases distinct with
      | false =>
          cases words
          exact whole
      | true =>
          obtain ⟨_, rfl, rfl⟩ := words
          exact whole
  | countAll =>
      obtain ⟨_, rfl, read⟩ := read
      obtain ⟨_, rfl, _, rfl, rfl⟩ := enclosed_iff.mp read
      exact .countAll
  | cast operand type =>
      obtain ⟨_, rfl, read⟩ := read
      obtain ⟨_, rfl, own, _, rfl, operandRead, _, rfl, _, rfl, rfl⟩ := enclosed_iff.mp read
      exact .cast type operandRead.reads
  | window function arguments partition order =>
      rw [frame, List.cons_append] at read
      obtain ⟨_, rfl, rest⟩ := read
      obtain ⟨_, _, rfl, call, _, rfl, clauses⟩ := append_iff.mp rest
      obtain ⟨_, rfl, inside⟩ := enclosed_iff.mp call
      obtain ⟨_, parts, rfl⟩ := separated_iff.mp inside
      obtain ⟨arguments, rfl, rfl, argumentsRead⟩ := exists_readings parts
      obtain ⟨_, rfl, both⟩ := enclosed_iff.mp clauses
      obtain ⟨_, _, rfl, first, second⟩ := append_iff.mp both
      obtain ⟨_, items, rfl⟩ := clause_iff.mp first
      obtain ⟨partition, rfl, rfl, partitionReads⟩ := exists_readings items
      obtain ⟨_, entries, rfl⟩ := clause_iff.mp second
      obtain ⟨order, rfl, rfl, orderReads⟩ := exists_orderReadings entries
      exact .window function arguments partition order
        (fun item member => (argumentsRead item member).reads)
        (fun item member => (partitionReads item member).reads)
        fun item member => (orderReads item member).reads
  | case branches otherwise =>
      rw [frame, List.cons_append, List.cons_append] at read
      obtain ⟨_, rfl, rest⟩ := read
      obtain ⟨_, _, rfl, inside, _, rfl, rfl⟩ := append_iff.mp rest
      obtain ⟨_, _, rfl, branchesRead, otherwiseRead⟩ := append_iff.mp inside
      obtain ⟨branches, rfl, rfl, branchReads⟩ := exists_branchReadings branchesRead
      obtain ⟨otherwise, rfl, rfl, resultRead⟩ := exists_otherwiseReading otherwiseRead
      have whole := SqlSelect.Reads.case branches otherwise
        (fun branch member => (branchReads branch member).1.reads)
        (fun branch member => (branchReads branch member).2.reads)
        fun result member => (resultRead result member).reads
      rw [precedence]
      simpa using whole

/-- What is derived is read part by part by the grammar. -/
theorem Derives.frameReads {dialect : Dialect} {notLevel : NotLevel} {frame : Frame}
    {tokens : List Token} (derives : DerivesAt dialect notLevel frame tokens) :
    Frame.Reads (Place.Reads dialect notLevel) frame tokens := by
  induction derives with
  | nil => rfl
  | symbol token _ ih => exact ⟨_, rfl, ih⟩
  | @expand place phrase _ _ fits _ ih =>
      obtain ⟨own, more, rfl, ownReads, moreReads⟩ := Frame.Reads.append_iff.mp ih
      have reads := Phrase.reads_of_frame ownReads
      refine ⟨own, more, rfl, ⟨reads.loosen (Phrase.level_le_of_fits fits), ?_⟩, moreReads⟩
      rintro rfl starts
      have tight : Precedence.predicate.level ≤ (phrase.precedence dialect notLevel).level :=
        Nat.le_trans (by cases notLevel <;> decide) (Phrase.level_le_of_fits fits)
      obtain ⟨pieces, rfl⟩ := reads.eq_exists tight starts
      exact Phrase.not_fits_negated dialect notLevel pieces fits
  | group _ _ ih =>
      obtain ⟨own, _, rfl, read, more, rfl, moreReads⟩ := ih
      refine ⟨Token.enclosed own, more, by simp [Token.enclosed], ⟨read.reads.group_any, ?_⟩,
        moreReads⟩
      rintro rfl starts
      cases starts

/-- What is read in a place is read by the grammar, at the level of the place. -/
theorem ReadsAt.reads {dialect : Dialect} {notLevel : NotLevel} {place : Place}
    {tokens : List Token} {phrase : Phrase}
    (reads : ReadsAt dialect notLevel place tokens phrase) :
    Reads dialect notLevel (place.precedence notLevel) tokens phrase := by
  obtain ⟨_, _, rfl, read, rfl⟩ := Derives.frameReads reads
  rw [List.append_nil]
  exact read.reads

/-- With NOT at the level of a minus sign, the grammar is that of expressions. -/
theorem reads_iff_readsAt {dialect : Dialect} {precedence : Precedence} {tokens : List Token}
    {phrase : Phrase} :
    Reads dialect .declared precedence tokens phrase ↔
      ReadsAt dialect .declared (.atLeast precedence) tokens phrase :=
  ⟨Reads.readsAt, ReadsAt.reads⟩

/-- No token list is read as two phrases in a place, wherever NOT stands. -/
theorem ReadsAt.functional {dialect : Dialect} {notLevel : NotLevel} {place : Place}
    {tokens : List Token} {phrase other : Phrase}
    (reads : ReadsAt dialect notLevel place tokens phrase)
    (otherReads : ReadsAt dialect notLevel place tokens other) : phrase = other :=
  reads.reads.functional otherReads.reads

end SqlSelect
