import SqlSelect.Proofs.Grammar.Reader

/-!
# The grammar is unambiguous

Whatever the grammar reads as a phrase, the reader finds as that phrase, provided that
the tokens behind do not continue it.  The induction is on the grammar's derivation: what
is read at a level is carried on by the loop of that level, which lets operators associate
to the left.
-/

namespace SqlSelect

/-! ## Runs with enough fuel -/

/-- With enough fuel, a run has the result. -/
def Yields {α : Type} (run : Nat → Option α) (result : α) : Prop :=
  ∃ enough, ∀ fuel, enough ≤ fuel → run fuel = some result

namespace Yields

variable {α β : Type} {run : Nat → Option α} {result : α}

theorem unique {other : α} (first : Yields run result) (second : Yields run other) :
    result = other := by
  rcases first with ⟨enough, first⟩
  rcases second with ⟨more, second⟩
  have same := (first (max enough more) (Nat.le_max_left _ _)).symm.trans
    (second (max enough more) (Nat.le_max_right _ _))
  exact Option.some.inj same

theorem pure (result : α) : Yields (fun _ => some result) result :=
  ⟨0, fun _ _ => rfl⟩

theorem succ (later : Yields (fun fuel => run (fuel + 1)) result) : Yields run result := by
  rcases later with ⟨enough, later⟩
  refine ⟨enough + 1, ?_⟩
  intro fuel bound
  cases fuel with
  | zero => omega
  | succ fuel => exact later fuel (by omega)

theorem bind {next : Nat → α → Option β} {final : β} (first : Yields run result)
    (second : Yields (next · result) final) :
    Yields (fun fuel => run fuel >>= next fuel) final := by
  rcases first with ⟨enough, first⟩
  rcases second with ⟨more, second⟩
  refine ⟨max enough more, ?_⟩
  intro fuel bound
  have here := first fuel (by omega)
  have there := second fuel (by omega)
  simpa [here] using there

end Yields

/-! ## Where a phrase stops -/

namespace Token

/-- The level of the phrases that a token continues, if it continues any. -/
def continues : Token → Option Precedence
  | .operator symbol => some symbol.precedence
  | .keyword .not | .keyword .between | .keyword .like | .keyword .isIn | .keyword .is =>
    some .predicate
  | .keyword .over => some .primary
  | _ => none

/-- A token that a primary starts with. -/
def startsPrimary : Token → Bool
  | .place _ | .leaf _ | .query _ | .opening | .function _ | .concat | .keyword .cast
  | .keyword .case => true
  | _ => false

/-- A token that a phrase of the level starts with. -/
def starts (notLevel : NotLevel) (level : Precedence) : Token → Bool
  | .keyword .not => level.level ≤ notLevel.precedence.level
  | .keyword .exists => level.level ≤ Precedence.predicate.level
  | .operator .subtract => level.level ≤ Precedence.unary.level
  | token => token.startsPrimary

end Token

/-- The tokens do not continue a phrase of the level. -/
def Stops (level : Precedence) (rest : List Token) : Prop :=
  ∀ token ∈ rest.head?, ∀ continued ∈ token.continues, continued.level < level.level

namespace Precedence

theorem level_le_tighter (level : Precedence) : level.level ≤ level.tighter.level := by
  cases level <;> decide

/-- The level of what is not read behind a phrase of a level.  A predicate is not carried on by
another. -/
def behind : Precedence → Precedence
  | .predicate => .predicate
  | level => level.tighter

theorem level_le_behind (level : Precedence) : level.level ≤ level.behind.level := by
  cases level <;> decide

theorem behind_le_tighter (level : Precedence) : level.behind.level ≤ level.tighter.level := by
  cases level <;> decide

end Precedence

namespace BinaryOperator

theorem level_lt_behind (operator : BinaryOperator) :
    operator.precedence.level < operator.precedence.behind.level := by
  cases operator <;> decide

theorem precedence_ne_unary (operator : BinaryOperator) : operator.precedence ≠ .unary := by
  cases operator <;> decide

theorem precedence_ne_primary (operator : BinaryOperator) :
    operator.precedence ≠ .primary := by
  cases operator <;> decide

end BinaryOperator

namespace Stops

variable {level : Precedence} {rest : List Token}

theorem mono {other : Precedence} (stops : Stops level rest)
    (looser : level.level ≤ other.level) : Stops other rest := by
  intro token member continued continues
  exact Nat.lt_of_lt_of_le (stops token member continued continues) looser

theorem behind (stops : Stops level rest) : Stops level.behind rest :=
  stops.mono level.level_le_behind

theorem tighter (stops : Stops level.behind rest) : Stops level.tighter rest :=
  stops.mono level.behind_le_tighter

theorem nil : Stops level [] := by
  intro token member
  cases member

/-- A token that continues nothing stops every phrase. -/
theorem cons {token : Token} (silent : token.continues = none) (rest : List Token) :
    Stops level (token :: rest) := by
  intro head member continued continues
  cases member
  rw [silent] at continues
  cases continues

theorem operator (operator : BinaryOperator) (rest : List Token)
    (looser : operator.precedence.level < level.level) :
    Stops level (.operator operator :: rest) := by
  intro head member continued continues
  cases member
  cases continues
  exact looser

/-- A predicate stops its operand. -/
theorem negation (negated : Bool) {token : Token} (rest : List Token)
    (continues : token.continues = some .predicate) :
    Stops .comparison (Token.negation negated ++ token :: rest) := by
  intro head member continued headContinues
  cases negated with
  | false =>
      cases member
      rw [continues] at headContinues
      cases headContinues
      decide
  | true =>
      cases member
      cases headContinues
      decide

end Stops

namespace Reader

variable {notLevel : NotLevel} {level : Precedence} {rest tokens : List Token}
variable {phrase : Phrase}

/-- Behind a phrase that stops, nothing is added to it. -/
theorem continued_stops (stops : Stops level rest) :
    Yields (continued notLevel · level phrase rest) (phrase, rest) := by
  apply Yields.succ
  apply Yields.succ
  cases rest with
  | nil => cases level <;> exact .pure _
  | cons token rest =>
      have below := stops token rfl
      cases token with
      | operator operator =>
          have other : operator.precedence ≠ level := by
            intro same
            have := below _ rfl
            rw [same] at this
            omega
          simp only [continued, Precedence.mem_operators, if_neg other]
          exact .pure _
      | keyword word =>
          by_cases atPredicate : level = .predicate
          · subst atPredicate
            cases word <;>
              first | exact .pure _ | exact absurd (below .predicate rfl) (by decide)
          · cases word <;> (simp only [continued, if_neg atPredicate]; exact .pure _)
      | _ => cases level <;> exact .pure _

/-- Nothing continues at the two tightest levels. -/
theorem continued_tight (tight : level = .unary ∨ level = .primary) :
    Yields (continued notLevel · level phrase rest) (phrase, rest) := by
  have foreign (operator : BinaryOperator) : operator.precedence ≠ level := by
    rcases tight with rfl | rfl
    · exact operator.precedence_ne_unary
    · exact operator.precedence_ne_primary
  have notPredicate : level ≠ .predicate := by
    rcases tight with rfl | rfl <;> decide
  apply Yields.succ
  cases rest with
  | nil =>
      simp only [continued, if_neg notPredicate]
      exact .pure _
  | cons token rest =>
      cases token with
      | operator operator =>
          simp only [continued, Precedence.mem_operators, if_neg (foreign operator)]
          exact .pure _
      | keyword word => cases word <;> (simp only [continued, if_neg notPredicate]; exact .pure _)
      | _ =>
          simp only [continued, if_neg notPredicate]
          exact .pure _

/-- A phrase of a level is one of the next tighter level, carried on. -/
theorem parse_level {left : Phrase} {behind : List Token} {result : Phrase × List Token}
    (loose : level ≠ .unary ∧ level ≠ .primary) (affirmed : notLevel.ahead? level tokens = none)
    (first : Yields (parse notLevel · level.tighter tokens) (left, behind))
    (next : Yields (continued notLevel · level left behind) result) :
    Yields (parse notLevel · level tokens) result := by
  apply Yields.succ
  simp only [parse, affirmed]
  cases level with
  | unary => exact absurd rfl loose.1
  | primary => exact absurd rfl loose.2
  | _ => exact first.bind next

end Reader

/-! ## How phrases start -/

section Starting

variable {notLevel : NotLevel} {level : Precedence} {token : Token} {rest : List Token}

theorem Token.starts_of_tighter (starts : token.starts notLevel level.tighter = true) :
    token.starts notLevel level = true := by
  have tighter := level.level_le_tighter
  cases token with
  | operator symbol =>
      cases symbol with
      | subtract => exact decide_eq_true (Nat.le_trans tighter (of_decide_eq_true starts))
      | _ => cases starts
  | keyword word =>
      cases word with
      | not | «exists» => exact decide_eq_true (Nat.le_trans tighter (of_decide_eq_true starts))
      | cast | case => rfl
      | _ => cases starts
  | _ => exact starts

theorem Token.startsPrimary_of_starts (starts : token.starts notLevel .primary = true) :
    token.startsPrimary = true := by
  cases token with
  | operator symbol => cases symbol <;> cases starts
  | keyword word =>
      cases word with
      | not => cases notLevel <;> cases starts
      | _ => exact starts
  | _ => exact starts

namespace NotLevel

theorem ahead?_of_ne {tokens : List Token} (other : level ≠ notLevel.precedence) :
    notLevel.ahead? level tokens = none := by
  unfold ahead?
  split
  · rfl
  · exact if_neg other
  · rfl

/-- What starts a tighter phrase is no NOT of the level. -/
theorem ahead?_of_tighter (loose : level ≠ .primary)
    (starts : token.starts notLevel level.tighter = true) :
    notLevel.ahead? level (token :: rest) = none := by
  by_cases own : level = notLevel.precedence
  case neg => exact ahead?_of_ne own
  case pos =>
    subst own
    have other : token ≠ .keyword .not := by
      rintro rfl
      have bound := of_decide_eq_true starts
      cases notLevel <;> exact absurd bound (by decide)
    unfold ahead?
    split
    case h_2 same => exact absurd (List.cons.inj same).1 other
    all_goals rfl

theorem ahead?_not {tokens : List Token} (affirmed : .keyword .exists ∉ tokens.head?) :
    notLevel.ahead? notLevel.precedence (.keyword .not :: tokens) = some tokens := by
  cases tokens with
  | nil => exact if_pos rfl
  | cons token rest =>
      have other : token ≠ .keyword .exists := by
        rintro rfl
        exact affirmed rfl
      unfold ahead?
      split
      case h_1 same => exact absurd (List.cons.inj (List.cons.inj same).2).1 other
      case h_2 same =>
        rw [if_pos rfl, (List.cons.inj same).2]
      case h_3 none => exact (none _ rfl).elim

end NotLevel

end Starting

theorem Reads.starts {dialect : Dialect} {notLevel : NotLevel} {level : Precedence}
    {tokens : List Token} {phrase : Phrase} (reads : Reads dialect notLevel level tokens phrase) :
    ∃ head rest, tokens = head :: rest ∧ head.starts notLevel level = true := by
  induction reads with
  | tighter _ ih =>
      rcases ih with ⟨head, rest, rfl, starts⟩
      exact ⟨head, rest, rfl, Token.starts_of_tighter starts⟩
  | not _ _ _ => exact ⟨_, _, rfl, decide_eq_true (Nat.le_refl _)⟩
  | binary _ _ _ _ _ ih _ =>
      rcases ih with ⟨head, rest, rfl, starts⟩
      exact ⟨head, _, rfl, starts⟩
  | between _ _ _ _ ih _ _ =>
      rcases ih with ⟨head, rest, rfl, starts⟩
      exact ⟨head, _, rfl, Token.starts_of_tighter starts⟩
  | like _ _ _ ih _ =>
      rcases ih with ⟨head, rest, rfl, starts⟩
      exact ⟨head, _, rfl, Token.starts_of_tighter starts⟩
  | inList _ _ _ _ ih _ =>
      rcases ih with ⟨head, rest, rfl, starts⟩
      exact ⟨head, _, rfl, Token.starts_of_tighter starts⟩
  | inQuery _ _ _ ih =>
      rcases ih with ⟨head, rest, rfl, starts⟩
      exact ⟨head, _, rfl, Token.starts_of_tighter starts⟩
  | isNull _ _ ih =>
      rcases ih with ⟨head, rest, rfl, starts⟩
      exact ⟨head, _, rfl, Token.starts_of_tighter starts⟩
  | «exists» negated _ =>
      cases negated with
      | false => exact ⟨_, _, rfl, rfl⟩
      | true => exact ⟨_, _, rfl, by cases notLevel <;> rfl⟩
  | _ => exact ⟨_, _, rfl, rfl⟩

/-- What binds more tightly than a predicate does not start with the word EXISTS. -/
theorem Reads.not_exists {dialect : Dialect} {notLevel : NotLevel} {level : Precedence}
    {tokens : List Token} {phrase : Phrase} (reads : Reads dialect notLevel level tokens phrase)
    (tight : Precedence.predicate.level < level.level) (more : List Token) :
    .keyword .exists ∉ (tokens ++ more).head? := by
  obtain ⟨head, rest, rfl, starts⟩ := reads.starts
  intro same
  cases same
  exact absurd (of_decide_eq_true starts) (Nat.not_le.mpr tight)

/-- Of the predicates and what binds more tightly, only an EXISTS by itself starts with that
word. -/
theorem Reads.eq_exists {dialect : Dialect} {notLevel : NotLevel} {level : Precedence}
    {tokens : List Token} {phrase : Phrase} (reads : Reads dialect notLevel level tokens phrase)
    (tight : Precedence.predicate.level ≤ level.level)
    (starts : .keyword .exists ∈ tokens.head?) : ∃ pieces, phrase = .exists false pieces := by
  induction reads with
  | tighter _ ih => exact ih (Nat.le_trans tight (Precedence.level_le_tighter _)) starts
  | binary operator member _ left _ _ _ =>
      obtain rfl := Precedence.mem_operators.mp member
      have above : Precedence.predicate.level < operator.precedence.level := by
        cases operator <;> first | decide | exact absurd tight (by decide)
      exact absurd starts (left.not_exists above _)
  | between _ operand _ _ _ _ _ | like _ operand _ _ _ | inList _ _ operand _ _ _
  | inQuery _ _ operand _ | isNull _ operand _ =>
      simp only [List.append_assoc] at starts
      exact absurd starts (operand.not_exists (by decide) _)
  | «exists» negated pieces =>
      cases negated with
      | false => exact ⟨pieces, rfl⟩
      | true => cases starts
  | _ => cases starts

namespace Reader

variable {notLevel : NotLevel} {level : Precedence} {rest tokens : List Token}
variable {phrase : Phrase}

/-- What is read at one of the tightest levels is read as a phrase of an operand. -/
theorem parse_comparison (stops : Stops .comparison rest)
    (affirmed : ∀ level, notLevel.ahead? level tokens = none)
    (first : Yields (parse notLevel · .unary tokens) (phrase, rest)) :
    Yields (parse notLevel · .comparison tokens) (phrase, rest) := by
  have product : Yields (parse notLevel · .multiplicative tokens) (phrase, rest) :=
    parse_level (by decide) (affirmed _) first (continued_stops (stops.mono (by decide)))
  have sum : Yields (parse notLevel · .additive tokens) (phrase, rest) :=
    parse_level (by decide) (affirmed _) product (continued_stops (stops.mono (by decide)))
  exact parse_level (by decide) (affirmed _) sum (continued_stops stops)

/-- A phrase of the tightest level is one of a negation's level. -/
theorem parse_unary {head : Token} (starts : head.startsPrimary = true)
    {result : Phrase × List Token}
    (first : Yields (parse notLevel · .primary (head :: tokens)) result) :
    Yields (parse notLevel · .unary (head :: tokens)) result := by
  apply Yields.succ
  apply Yields.succ
  cases head with
  | operator _ => cases starts
  | keyword word => cases word <;> first | exact first | cases starts
  | _ => exact first

/-! ## Lists -/

/-- The reading is found, whatever stops it. -/
def Finds (notLevel : NotLevel) (reading : Reading) : Prop :=
  ∀ rest, Stops .or rest →
    Yields (parse notLevel · .or (reading.tokens ++ rest)) (reading.phrase, rest)

/-- What may stand behind a list: the end of its parentheses, or an ORDER BY. -/
def Ends (rest : List Token) : Prop :=
  ∃ behind, rest = .closing :: behind ∨ rest = .keyword .order :: behind

theorem list_finds (items : List (OrderItem Reading)) (filled : items ≠ [])
    (finds : ∀ item ∈ items, Finds notLevel item.expr) (ends : Ends rest) :
    Yields (list notLevel · (Token.separated (items.map Reading.orderTokens) ++ rest))
      (items.map fun item => ⟨item.expr.phrase, item.descending⟩, rest) := by
  induction items with
  | nil => exact absurd rfl filled
  | cons item others ih =>
      have head := finds item List.mem_cons_self
      rcases item with ⟨reading, descending⟩
      apply Yields.succ
      cases others with
      | nil =>
          rcases ends with ⟨behind, rfl | rfl⟩ <;> cases descending <;>
            simp only [List.map_cons, List.map_nil, Token.separated, Reading.orderTokens,
              List.append_assoc, Bool.false_eq_true, if_false, if_true, List.nil_append,
              List.cons_append] <;>
            exact (head _ (.cons rfl _)).bind (.pure _)
      | cons second more =>
          have tail := ih (by simp) fun other member =>
            finds other (List.mem_cons_of_mem _ member)
          cases descending <;>
            simp only [List.map_cons, Token.separated, Reading.orderTokens,
              List.append_assoc, Bool.false_eq_true, if_false, if_true, List.nil_append,
              List.cons_append] at tail ⊢ <;>
            exact (head _ (.cons rfl _)).bind (tail.bind (.pure _))

theorem separated_starts (items : List Reading) {item : Reading} {head : Token}
    (starts : ∃ behind, item.tokens = head :: behind) :
    ∃ behind, Token.separated ((item :: items).map Reading.tokens) = head :: behind := by
  rcases starts with ⟨behind, tokens⟩
  cases items <;> simp [Token.separated, tokens]

/-- An entry without a direction. -/
def undirected (item : Reading) : OrderItem Reading :=
  ⟨item, false⟩

theorem map_undirected_tokens (items : List Reading) :
    (items.map undirected).map Reading.orderTokens = items.map Reading.tokens := by
  simp [undirected, Reading.orderTokens]

theorem undirected_finds {items : List Reading} (finds : ∀ item ∈ items, Finds notLevel item) :
    ∀ item ∈ items.map undirected, Finds notLevel item.expr := by
  intro item member
  rcases List.mem_map.mp member with ⟨reading, known, rfl⟩
  exact finds reading known

theorem map_undirected_phrases (items : List Reading) :
    ((items.map undirected).map fun item =>
      (⟨item.expr.phrase, item.descending⟩ : OrderItem Phrase)).map OrderItem.expr =
        items.map Reading.phrase := by
  simp [undirected]

/-- A list without directions, up to the closing parenthesis. -/
theorem arguments_finds (items : List Reading) (finds : ∀ item ∈ items, Finds notLevel item)
    (starts : ∀ item ∈ items,
      ∃ head rest, item.tokens = head :: rest ∧ head.starts notLevel .or = true)
    (rest : List Token) :
    Yields (arguments notLevel · (Token.separated (items.map Reading.tokens) ++ .closing :: rest))
      (items.map Reading.phrase, rest) := by
  apply Yields.succ
  cases items with
  | nil => exact .pure _
  | cons item others =>
      have found := list_finds ((item :: others).map undirected) (by simp)
        (undirected_finds finds) ⟨rest, .inl rfl⟩
      rcases starts item List.mem_cons_self with ⟨head, behind, itemTokens, headStarts⟩
      rcases separated_starts others ⟨behind, itemTokens⟩ with ⟨more, separated⟩
      rw [map_undirected_tokens, separated] at found
      rw [separated, ← map_undirected_phrases]
      cases head with
      | closing => cases headStarts
      | _ => exact found.bind (.pure _)

theorem clause_finds {keyword : Keyword} (items : List (OrderItem Reading))
    (finds : ∀ item ∈ items, Finds notLevel item.expr) (ends : Ends rest)
    (missing : Yields (clause notLevel · keyword rest) ([], rest)) :
    Yields (clause notLevel · keyword
        (Token.clause keyword (items.map Reading.orderTokens) ++ rest))
      (items.map fun item => ⟨item.expr.phrase, item.descending⟩, rest) := by
  cases items with
  | nil => exact missing
  | cons item others =>
      have found := list_finds (item :: others) (by simp) finds ends
      apply Yields.succ
      simp only [clause, Token.clause, List.map_cons, List.isEmpty_cons, Bool.false_eq_true,
        if_false, List.cons_append, if_true]
      exact found

theorem ends_clause (order : List (OrderItem Reading)) (rest : List Token) :
    Ends (Token.clause .order (order.map Reading.orderTokens) ++ .closing :: rest) := by
  cases order with
  | nil => exact ⟨rest, .inl rfl⟩
  | cons item others => exact ⟨_, .inr rfl⟩

/-- An ORDER BY is no partition. -/
theorem missing_partition (order : List (OrderItem Reading)) (rest : List Token) :
    Yields (clause notLevel · .partition
        (Token.clause .order (order.map Reading.orderTokens) ++ .closing :: rest))
      ([], Token.clause .order (order.map Reading.orderTokens) ++ .closing :: rest) := by
  apply Yields.succ
  cases order with
  | nil => exact .pure _
  | cons item others => exact .pure _

theorem branches_finds (items : List (Branch Reading))
    (conditions : ∀ item ∈ items, Finds notLevel item.condition)
    (results : ∀ item ∈ items, Finds notLevel item.result)
    (silent : ∃ word behind, rest = .keyword word :: behind ∧
      (word = .otherwise ∨ word = .endCase)) :
    Yields (branches notLevel · (items.flatMap Reading.branchTokens ++ rest))
      (items.map fun item => ⟨item.condition.phrase, item.result.phrase⟩, rest) := by
  induction items with
  | nil =>
      apply Yields.succ
      rcases silent with ⟨word, behind, rfl, rfl | rfl⟩ <;> exact .pure _
  | cons item others ih =>
      have condition := conditions item List.mem_cons_self
      have result := results item List.mem_cons_self
      have tail := ih (fun other member => conditions other (List.mem_cons_of_mem _ member))
        fun other member => results other (List.mem_cons_of_mem _ member)
      have stops : Stops .or (others.flatMap Reading.branchTokens ++ rest) := by
        cases others with
        | nil => rcases silent with ⟨word, behind, rfl, rfl | rfl⟩ <;> exact .cons rfl _
        | cons other more => exact .cons rfl _
      apply Yields.succ
      simp only [List.flatMap_cons, Reading.branchTokens, List.append_assoc, List.cons_append]
      exact (condition _ (.cons rfl _)).bind ((result _ stops).bind (tail.bind (.pure _)))

/-! ## One rule after another -/

/-- The reader follows the tokens to the phrase: it then goes on from there, unless a
tighter phrase would be continued. -/
def Follows (notLevel : NotLevel) (level : Precedence) (tokens : List Token)
    (phrase : Phrase) : Prop :=
  ∀ rest result, Stops level.behind rest →
    Yields (continued notLevel · level phrase rest) result →
    Yields (parse notLevel · level (tokens ++ rest)) result

theorem Follows.stops (follows : Follows notLevel level tokens phrase)
    (stops : Stops level rest) :
    Yields (parse notLevel · level (tokens ++ rest)) (phrase, rest) :=
  follows rest _ stops.behind (continued_stops stops)

theorem Follows.finds {reading : Reading}
    (follows : Follows notLevel .or reading.tokens reading.phrase) : Finds notLevel reading :=
  fun _ stops => follows.stops stops

/-- At the two tightest levels nothing goes on. -/
theorem follows_of_tight (tight : level = .unary ∨ level = .primary)
    (found : ∀ rest, Stops .primary rest →
      Yields (parse notLevel · level (tokens ++ rest)) (phrase, rest)) :
    Follows notLevel level tokens phrase := by
  intro rest result stops next
  have primary : level.behind = .primary := by
    rcases tight with rfl | rfl <;> rfl
  rw [(next.unique (continued_tight tight) : result = (phrase, rest))]
  rw [primary] at stops
  exact found rest stops

theorem follows_tighter (reads : Reads dialect notLevel level.tighter tokens phrase)
    (follows : Follows notLevel level.tighter tokens phrase) :
    Follows notLevel level tokens phrase := by
  by_cases unary : level = .unary
  · subst unary
    apply follows_of_tight (.inl rfl)
    intro rest stops
    rcases reads.starts with ⟨head, behind, rfl, starts⟩
    exact parse_unary (Token.startsPrimary_of_starts starts) (follows.stops stops)
  · by_cases primary : level = .primary
    · subst primary
      exact follows
    · intro rest result stops next
      rcases reads.starts with ⟨head, behind, rfl, starts⟩
      exact parse_level ⟨unary, primary⟩ (NotLevel.ahead?_of_tighter primary starts)
        (follows.stops stops.tighter) next

theorem follows_binary (operator : BinaryOperator) {left right : List Token}
    {leftPhrase rightPhrase : Phrase}
    (first : Follows notLevel operator.precedence left leftPhrase)
    (second : Follows notLevel operator.precedence.tighter right rightPhrase) :
    Follows notLevel operator.precedence (left ++ .operator operator :: right)
      (.binary operator leftPhrase rightPhrase) := by
  intro rest result stops next
  rw [List.append_assoc, List.cons_append]
  apply first
  · exact .operator operator _ operator.level_lt_behind
  · apply Yields.succ
    simp only [continued, Precedence.mem_operators, if_true]
    exact (second.stops stops.tighter).bind next

/-- A predicate goes on behind its operand. -/
theorem follows_predicate {operand suffix : List Token} {operandPhrase : Phrase}
    {negated : Bool} {token : Token}
    (reads : Reads dialect notLevel .comparison operand operandPhrase)
    (first : Follows notLevel .comparison operand operandPhrase)
    (continues : token.continues = some .predicate) (notOperator : token ≠ .keyword .not)
    (second : ∀ rest result, Stops .comparison rest →
      Yields (continued notLevel · .predicate phrase rest) result →
      Yields (predicate notLevel · negated operandPhrase (token :: suffix ++ rest)) result) :
    Follows notLevel .predicate (operand ++ Token.negation negated ++ token :: suffix) phrase := by
  intro rest result stops next
  rw [List.append_assoc, List.append_assoc]
  have operandFound := first.stops (.negation negated (suffix ++ rest) continues)
  rcases reads.starts with ⟨head, behind, rfl, starts⟩
  apply parse_level (by decide) (NotLevel.ahead?_of_tighter (by decide) starts) operandFound
  apply Yields.succ
  have found := second rest result stops.tighter next
  cases negated with
  | true => exact found
  | false =>
      cases token with
      | operator symbol => cases symbol <;> cases continues
      | keyword word => cases word <;> first | exact found | exact absurd rfl notOperator
      | _ => exact found

theorem follows_between (negated : Bool) {operand low high : List Token}
    {operandPhrase lowPhrase highPhrase : Phrase}
    (reads : Reads dialect notLevel .comparison operand operandPhrase)
    (first : Follows notLevel .comparison operand operandPhrase)
    (lower : Follows notLevel .additive low lowPhrase)
    (upper : Follows notLevel .additive high highPhrase) :
    Follows notLevel .predicate
      (operand ++ Token.negation negated ++
        .keyword .between :: low ++ .operator .and :: high)
      (.between negated operandPhrase lowPhrase highPhrase) := by
  rw [List.append_assoc _ (_ :: low), List.cons_append]
  apply follows_predicate reads first rfl (by simp)
  intro rest result stops next
  rw [List.cons_append, List.append_assoc, List.cons_append]
  apply Yields.succ
  have bounded := lower.stops (.operator .and (high ++ rest) (by decide))
  exact bounded.bind ((upper.stops (stops.mono (by decide))).bind next)

theorem follows_like (negated : Bool) {operand pattern : List Token}
    {operandPhrase patternPhrase : Phrase}
    (reads : Reads dialect notLevel .comparison operand operandPhrase)
    (first : Follows notLevel .comparison operand operandPhrase)
    (second : Follows notLevel .additive pattern patternPhrase) :
    Follows notLevel .predicate (operand ++ Token.negation negated ++ .keyword .like :: pattern)
      (.like negated operandPhrase patternPhrase) := by
  apply follows_predicate reads first rfl (by simp)
  intro rest result stops next
  apply Yields.succ
  exact (second.stops (stops.mono (by decide))).bind next

theorem follows_inList (negated : Bool) {operand : List Token} {operandPhrase : Phrase}
    (items : List Reading) (reads : Reads dialect notLevel .comparison operand operandPhrase)
    (first : Follows notLevel .comparison operand operandPhrase)
    (finds : ∀ item ∈ items, Finds notLevel item)
    (starts : ∀ item ∈ items,
      ∃ head rest, item.tokens = head :: rest ∧ head.starts notLevel .or = true) :
    Follows notLevel .predicate
      (operand ++ Token.negation negated ++ .keyword .isIn ::
        Token.enclosed (Token.separated (items.map Reading.tokens)))
      (.inList negated operandPhrase (items.map Reading.phrase)) := by
  apply follows_predicate reads first rfl (by simp)
  intro rest result stops next
  simp only [Token.enclosed, List.cons_append, List.append_assoc, List.nil_append]
  apply Yields.succ
  exact (arguments_finds items finds starts rest).bind next

theorem follows_inQuery (negated : Bool) {operand : List Token} {operandPhrase : Phrase}
    (pieces : List Piece) (reads : Reads dialect notLevel .comparison operand operandPhrase)
    (first : Follows notLevel .comparison operand operandPhrase) :
    Follows notLevel .predicate
      (operand ++ Token.negation negated ++ [.keyword .isIn, .query pieces])
      (.inQuery negated operandPhrase pieces) := by
  apply follows_predicate reads first rfl (by simp)
  intro rest result stops next
  exact Yields.succ next

theorem follows_isNull (negated : Bool) {operand : List Token} {operandPhrase : Phrase}
    (reads : Reads dialect notLevel .comparison operand operandPhrase)
    (first : Follows notLevel .comparison operand operandPhrase) :
    Follows notLevel .predicate
      (operand ++ .keyword .is :: Token.negation negated ++ [.keyword .null])
      (.isNull negated operandPhrase) := by
  have tokens : operand ++ .keyword .is :: Token.negation negated ++ [.keyword .null] =
      operand ++ Token.negation false ++
        .keyword .is :: (Token.negation negated ++ [.keyword .null]) := by
    simp [Token.negation]
  rw [tokens]
  apply follows_predicate reads first rfl (by simp)
  intro rest result stops next
  apply Yields.succ
  cases negated <;> exact next

theorem follows_exists (negated : Bool) (pieces : List Piece) :
    Follows notLevel .predicate (Token.negation negated ++ [.keyword .exists, .query pieces])
      (.exists negated pieces) := by
  intro rest result stops next
  have affirmed (level : Precedence) : notLevel.ahead? level
      (Token.negation negated ++ [.keyword .exists, .query pieces] ++ rest) = none := by
    cases negated <;> rfl
  refine parse_level (by decide) (affirmed _) (parse_comparison stops.tighter affirmed ?_) next
  apply Yields.succ
  apply Yields.succ
  simp only [parse, affirmed]
  cases negated with
  | true => exact .pure _
  | false =>
      apply Yields.succ
      apply Yields.succ
      exact .pure _

/-- What a NOT is written ahead of is never carried on by more than the NOT is. -/
theorem continued_negation (stops : Stops notLevel.precedence.behind rest) :
    Yields (continued notLevel · notLevel.precedence phrase rest) (phrase, rest) := by
  cases notLevel with
  | declared => exact continued_tight (.inl rfl)
  | standard => exact continued_stops stops

theorem follows_not {operand : List Token} {operandPhrase : Phrase}
    (reads : Reads dialect notLevel notLevel.precedence operand operandPhrase)
    (affirmed : .keyword .exists ∉ operand.head?)
    (follows : Follows notLevel notLevel.precedence operand operandPhrase) :
    Follows notLevel notLevel.precedence (.keyword .not :: operand) (.not operandPhrase) := by
  intro rest result stops next
  rw [(next.unique (continued_negation stops) : result = (_, rest))]
  have found := follows rest _ stops (continued_negation stops)
  rcases reads.starts with ⟨head, behind, rfl, starts⟩
  have ahead : notLevel.ahead? notLevel.precedence (.keyword .not :: head :: behind ++ rest) =
      some (head :: behind ++ rest) := NotLevel.ahead?_not affirmed
  apply Yields.succ
  simp only [parse, ahead]
  exact found.bind (.pure _)

theorem follows_negate {operand : List Token} {operandPhrase : Phrase}
    (follows : Follows notLevel .primary operand operandPhrase) :
    Follows notLevel .unary (.operator .subtract :: operand) (.negate operandPhrase) := by
  apply follows_of_tight (.inl rfl)
  intro rest stops
  apply Yields.succ
  apply Yields.succ
  exact (follows.stops stops).bind (.pure _)

/-! ## Primaries -/

/-- A primary is followed if it is read whole wherever it stops. -/
theorem follows_primary
    (found : ∀ rest, Stops .primary rest →
      Yields (fun fuel => primary notLevel (fuel + 1) (tokens ++ rest)) (phrase, rest)) :
    Follows notLevel .primary tokens phrase := by
  apply follows_of_tight (.inr rfl)
  intro rest stops
  have affirmed : notLevel.ahead? .primary (tokens ++ rest) = none :=
    NotLevel.ahead?_of_ne (by cases notLevel <;> decide)
  apply Yields.succ
  apply Yields.succ
  simp only [parse, affirmed]
  exact found rest stops

theorem follows_group (follows : Follows notLevel .or tokens phrase) :
    Follows notLevel .primary (Token.enclosed tokens) phrase := by
  apply follows_primary
  intro rest _
  simp only [Token.enclosed, List.cons_append, List.append_assoc, List.nil_append]
  exact (follows.stops (.cons rfl _)).bind (.pure _)

theorem follows_cast {operand : List Token} {operandPhrase : Phrase} (type : String)
    (follows : Follows notLevel .or operand operandPhrase) :
    Follows notLevel .primary
      (.keyword .cast :: Token.enclosed (operand ++ [.keyword .asType, .leaf type]))
      (.cast operandPhrase type) := by
  apply follows_primary
  intro rest _
  simp only [Token.enclosed, List.cons_append, List.append_assoc, List.nil_append]
  exact (follows.stops (.cons rfl _)).bind (.pure _)

theorem follows_concat {left right : List Token} {leftPhrase rightPhrase : Phrase}
    (first : Reads dialect notLevel .or left leftPhrase)
    (second : Reads dialect notLevel .or right rightPhrase)
    (firstFollows : Follows notLevel .or left leftPhrase)
    (secondFollows : Follows notLevel .or right rightPhrase) :
    Follows notLevel .primary (.concat :: Token.enclosed (left ++ .comma :: right))
      (.binary .concat leftPhrase rightPhrase) := by
  apply follows_primary
  intro rest _
  have found := arguments_finds [⟨left, leftPhrase⟩, ⟨right, rightPhrase⟩]
    (by
      rintro item (_ | ⟨_, _ | ⟨_, member⟩⟩)
      · exact firstFollows.finds
      · exact secondFollows.finds
      · cases member)
    (by
      rintro item (_ | ⟨_, _ | ⟨_, member⟩⟩)
      · exact first.starts
      · exact second.starts
      · cases member) rest
  simp only [Token.enclosed, List.cons_append, List.append_assoc, List.nil_append, primary]
  simp only [List.map_cons, List.map_nil, Token.separated, List.append_assoc,
    List.cons_append] at found
  exact found.bind (.pure _)

/-- The arguments of a call are read up to the parenthesis, and the call goes on. -/
theorem called_finds {function : SqlFunction} (items : List Reading)
    (finds : ∀ item ∈ items, Finds notLevel item)
    (starts : ∀ item ∈ items,
      ∃ head rest, item.tokens = head :: rest ∧ head.starts notLevel .or = true)
    {result : Phrase × List Token}
    (next : Yields (windowed notLevel · function (items.map Reading.phrase) rest) result) :
    Yields (called notLevel · function
      (Token.separated (items.map Reading.tokens) ++ .closing :: rest)) result := by
  have found := arguments_finds items finds starts rest
  apply Yields.succ
  cases items with
  | nil => exact found.bind next
  | cons item others =>
      rcases starts item List.mem_cons_self with ⟨head, behind, itemTokens, headStarts⟩
      rcases separated_starts others ⟨behind, itemTokens⟩ with ⟨more, separated⟩
      rw [separated] at found ⊢
      cases head with
      | operator symbol =>
          cases symbol <;> first | exact found.bind next | cases headStarts
      | keyword word =>
          cases word <;> first | exact found.bind next | cases headStarts
      | _ => exact found.bind next

theorem follows_call (function : SqlFunction) (distinct : Bool) (items : List Reading)
    (finds : ∀ item ∈ items, Finds notLevel item)
    (starts : ∀ item ∈ items,
      ∃ head rest, item.tokens = head :: rest ∧ head.starts notLevel .or = true) :
    Follows notLevel .primary
      (.function function ::
        Token.enclosed ((if distinct then [.keyword .distinct] else []) ++
          Token.separated (items.map Reading.tokens)))
      (.call function distinct (items.map Reading.phrase)) := by
  apply follows_primary
  intro rest stops
  simp only [Token.enclosed, List.cons_append, List.append_assoc, List.nil_append, primary]
  cases distinct with
  | true =>
      apply Yields.succ
      exact (arguments_finds items finds starts rest).bind (.pure _)
  | false =>
      apply called_finds items finds starts
      apply Yields.succ
      cases rest with
      | nil => exact .pure _
      | cons token rest =>
          cases token with
          | keyword word =>
              cases word with
              | «over» => exact absurd (stops _ rfl .primary rfl) (by decide)
              | _ => exact .pure _
          | _ => exact .pure _

theorem follows_countAll :
    Follows notLevel .primary
      (.function .count :: Token.enclosed [.operator .multiply])
      .countAll := by
  apply follows_primary
  intro rest _
  simp only [Token.enclosed, List.cons_append, List.nil_append, primary]
  apply Yields.succ
  exact .pure _

theorem follows_window (function : SqlFunction) (items partition : List Reading)
    (order : List (OrderItem Reading)) (finds : ∀ item ∈ items, Finds notLevel item)
    (starts : ∀ item ∈ items,
      ∃ head rest, item.tokens = head :: rest ∧ head.starts notLevel .or = true)
    (partitionFinds : ∀ item ∈ partition, Finds notLevel item)
    (orderFinds : ∀ item ∈ order, Finds notLevel item.expr) :
    Follows notLevel .primary
      (.function function ::
        Token.enclosed (Token.separated (items.map Reading.tokens)) ++
        .keyword .over :: Token.enclosed (
          Token.clause .partition (partition.map Reading.tokens) ++
            Token.clause .order (order.map Reading.orderTokens)))
      (.window function (items.map Reading.phrase) (partition.map Reading.phrase)
        (order.map fun item => ⟨item.expr.phrase, item.descending⟩)) := by
  apply follows_primary
  intro rest _
  have ordered : Yields (clause notLevel · .order
      (Token.clause .order (order.map Reading.orderTokens) ++ .closing :: rest))
      (order.map fun item => ⟨item.expr.phrase, item.descending⟩, .closing :: rest) :=
    clause_finds order orderFinds ⟨rest, .inl rfl⟩ (.succ (.pure _))
  have partitioned := clause_finds (partition.map undirected) (undirected_finds partitionFinds)
    (ends_clause order rest) (missing_partition order rest)
  rw [map_undirected_tokens] at partitioned
  simp only [Token.enclosed, List.cons_append, List.append_assoc, List.nil_append, primary]
  apply called_finds items finds starts
  apply Yields.succ
  rw [← map_undirected_phrases partition]
  exact partitioned.bind (ordered.bind (.pure _))

theorem follows_case (items : List (Branch Reading)) (otherwise : Option Reading)
    (conditions : ∀ item ∈ items, Finds notLevel item.condition)
    (results : ∀ item ∈ items, Finds notLevel item.result)
    (last : ∀ reading ∈ otherwise, Finds notLevel reading) :
    Follows notLevel .primary
      (.keyword .case :: items.flatMap Reading.branchTokens ++
        Reading.otherwiseTokens otherwise ++ [.keyword .endCase])
      (.case (items.map fun item => ⟨item.condition.phrase, item.result.phrase⟩)
        (otherwise.map Reading.phrase)) := by
  apply follows_primary
  intro rest _
  cases otherwise with
  | none =>
      have found := branches_finds items conditions results
        ⟨.endCase, rest, rfl, .inr rfl⟩
      simp only [Reading.otherwiseTokens, List.cons_append, List.append_assoc,
        List.nil_append]
      exact found.bind (.pure _)
  | some reading =>
      have found := branches_finds items conditions results
        ⟨.otherwise, reading.tokens ++ .keyword .endCase :: rest, rfl, .inl rfl⟩
      have lastFound := last reading rfl (.keyword .endCase :: rest) (.cons rfl _)
      simp only [Reading.otherwiseTokens, List.cons_append, List.append_assoc,
        List.nil_append]
      exact found.bind (lastFound.bind (.pure _))

end Reader

/-! ## The whole grammar -/

open Reader in
/-- Whatever the grammar reads, the reader follows. -/
theorem Reads.follows {dialect : Dialect} {notLevel : NotLevel} {level : Precedence}
    {tokens : List Token} {phrase : Phrase} (reads : Reads dialect notLevel level tokens phrase) :
    Follows notLevel level tokens phrase := by
  induction reads with
  | tighter reads ih => exact follows_tighter reads ih
  | binary operator member _ _ _ first second =>
      obtain rfl := Precedence.mem_operators.mp member
      exact follows_binary operator first second
  | between negated reads _ _ operand low high =>
      exact follows_between negated reads operand low high
  | like negated reads _ operand pattern => exact follows_like negated reads operand pattern
  | inList negated items reads readings operand ih =>
      exact follows_inList negated items reads operand (fun item member => (ih item member).finds)
        fun item member => (readings item member).starts
  | inQuery negated pieces reads operand => exact follows_inQuery negated pieces reads operand
  | «exists» negated pieces => exact follows_exists negated pieces
  | isNull negated reads operand => exact follows_isNull negated reads operand
  | not affirmed reads ih => exact follows_not reads affirmed ih
  | negate _ ih => exact follows_negate ih
  | place value => exact follows_primary fun _ _ => .pure _
  | leaf text => exact follows_primary fun _ _ => .pure _
  | query pieces => exact follows_primary fun _ _ => .pure _
  | group _ ih => exact follows_group ih
  | call function distinct items readings ih =>
      exact follows_call function distinct items (fun item member => (ih item member).finds)
        fun item member => (readings item member).starts
  | countAll => exact follows_countAll
  | concat _ left right first second => exact follows_concat left right first second
  | cast type _ ih => exact follows_cast type ih
  | window function items partition order readings _ _ first second third =>
      exact follows_window function items partition order
        (fun item member => (first item member).finds)
        (fun item member => (readings item member).starts)
        (fun item member => (second item member).finds)
        fun item member => (third item member).finds
  | case branches otherwise _ _ _ conditions results last =>
      exact follows_case branches otherwise (fun item member => (conditions item member).finds)
        (fun item member => (results item member).finds)
        fun item member => (last item member).finds

/-- No token list is read as two phrases of a level. -/
theorem Reads.functional {dialect : Dialect} {notLevel : NotLevel} {level : Precedence}
    {tokens : List Token} {phrase other : Phrase}
    (reads : Reads dialect notLevel level tokens phrase)
    (otherReads : Reads dialect notLevel level tokens other) : phrase = other := by
  have first := reads.follows.stops .nil
  have second := otherReads.follows.stops .nil
  exact congrArg Prod.fst (first.unique second)

end SqlSelect
