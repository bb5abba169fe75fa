import SqlSelect.Proofs.Grammar.Grammar

/-!
# Reading from left to right

A reader of tokens that never goes back.  It follows every phrase of the grammar as far
as the tokens can continue it, so that no token list is read as two phrases.  Some token
lists outside the grammar are read too.
-/

namespace SqlSelect

/-- What a NOT of the level is written ahead of, if the tokens start with one.  Ahead of EXISTS
there is none: the two words are one predicate. -/
def NotLevel.ahead? (notLevel : NotLevel) (level : Precedence) :
    List Token → Option (List Token)
  | .keyword .not :: .keyword .exists :: _ => none
  | .keyword .not :: rest => if level = notLevel.precedence then some rest else none
  | _ => none

namespace Reader

/-- A phrase, and the tokens behind it. -/
abbrev Result := Option (Phrase × List Token)

variable (notLevel : NotLevel)

mutual

/-- Read a phrase of a level. -/
def parse : Nat → Precedence → List Token → Result
  | 0, _, _ => none
  | fuel + 1, level, tokens =>
    match notLevel.ahead? level tokens with
    | some rest => do
      let (operand, rest) ← parse fuel level rest
      return (.not operand, rest)
    | none =>
      match level with
      | .primary => primary fuel tokens
      | .unary => unary fuel tokens
      | level => do
        let (left, rest) ← parse fuel level.tighter tokens
        continued fuel level left rest

/-- Go on behind a phrase for as long as there is an operator or a predicate of the
level. -/
def continued : Nat → Precedence → Phrase → List Token → Result
  | 0, _, _, _ => none
  | fuel + 1, level, left, tokens =>
    match tokens with
    | .operator operator :: rest =>
      if operator ∈ level.operators then do
        let (right, rest) ← parse fuel level.tighter rest
        continued fuel level (.binary operator left right) rest
      else some (left, tokens)
    | .keyword .not :: rest =>
      if level = .predicate then predicate fuel true left rest else some (left, tokens)
    | tokens =>
      if level = .predicate then predicate fuel false left tokens
      else some (left, tokens)

/-- Read a predicate behind its operand. -/
def predicate : Nat → Bool → Phrase → List Token → Result
  | 0, _, _, _ => none
  | fuel + 1, negated, operand, tokens =>
    match tokens with
    | .keyword .between :: rest => do
      let (low, rest) ← parse fuel .additive rest
      match rest with
      | .operator .and :: rest => do
        let (high, rest) ← parse fuel .additive rest
        continued fuel .predicate (.between negated operand low high) rest
      | _ => none
    | .keyword .like :: rest => do
      let (pattern, rest) ← parse fuel .additive rest
      continued fuel .predicate (.like negated operand pattern) rest
    | .keyword .isIn :: .query pieces :: rest =>
      continued fuel .predicate (.inQuery negated operand pieces) rest
    | .keyword .isIn :: .opening :: rest => do
      let (items, rest) ← arguments fuel rest
      continued fuel .predicate (.inList negated operand items) rest
    | .keyword .is :: .keyword .not :: .keyword .null :: rest =>
      continued fuel .predicate (.isNull true operand) rest
    | .keyword .is :: .keyword .null :: rest =>
      continued fuel .predicate (.isNull false operand) rest
    | tokens => some (operand, tokens)

/-- Read a minus sign and a primary, or a primary alone. -/
def unary : Nat → List Token → Result
  | 0, _ => none
  | fuel + 1, tokens =>
    match tokens with
    | .keyword .not :: .keyword .exists :: .query pieces :: rest =>
      some (.exists true pieces, rest)
    | .operator .subtract :: rest => do
      let (operand, rest) ← parse fuel .primary rest
      return (.negate operand, rest)
    | tokens => parse fuel .primary tokens

/-- Read a primary. -/
def primary : Nat → List Token → Result
  | 0, _ => none
  | fuel + 1, tokens =>
    match tokens with
    | .place value :: rest => some (.place value, rest)
    | .leaf text :: rest => some (.leaf text, rest)
    | .query pieces :: rest => some (.query pieces, rest)
    | .keyword .exists :: .query pieces :: rest => some (.exists false pieces, rest)
    | .opening :: rest => do
      let (phrase, rest) ← parse fuel .or rest
      match rest with
      | .closing :: rest => some (phrase, rest)
      | _ => none
    | .keyword .cast :: .opening :: rest => do
      let (operand, rest) ← parse fuel .or rest
      match rest with
      | .keyword .asType :: .leaf type :: .closing :: rest => some (.cast operand type, rest)
      | _ => none
    | .keyword .case :: rest => do
      let (branches, rest) ← branches fuel rest
      match rest with
      | .keyword .otherwise :: rest => do
        let (otherwise, rest) ← parse fuel .or rest
        match rest with
        | .keyword .endCase :: rest => some (.case branches (some otherwise), rest)
        | _ => none
      | .keyword .endCase :: rest => some (.case branches none, rest)
      | _ => none
    | .function function :: .opening :: rest => called fuel function rest
    | .concat :: .opening :: rest => do
      let (items, rest) ← arguments fuel rest
      match items with
      | [left, right] => some (.binary .concat left right, rest)
      | _ => none
    | _ => none

/-- Read a function call behind the opening parenthesis. -/
def called : Nat → SqlFunction → List Token → Result
  | 0, _, _ => none
  | fuel + 1, function, tokens =>
    match tokens with
    | .operator .multiply :: .closing :: rest => some (.countAll, rest)
    | .keyword .distinct :: rest => do
      let (items, rest) ← arguments fuel rest
      return (.call function true items, rest)
    | tokens => do
      let (items, rest) ← arguments fuel tokens
      windowed fuel function items rest

/-- Read the window behind a function call, if there is one. -/
def windowed : Nat → SqlFunction → List Phrase → List Token → Result
  | 0, _, _, _ => none
  | fuel + 1, function, items, tokens =>
    match tokens with
    | .keyword .over :: .opening :: rest => do
      let (partition, rest) ← clause fuel .partition rest
      let (order, rest) ← clause fuel .order rest
      match rest with
      | .closing :: rest =>
        some (.window function items (partition.map OrderItem.expr) order, rest)
      | _ => none
    | tokens => some (.call function false items, tokens)

/-- Read a list that may be empty, and the closing parenthesis behind it. -/
def arguments : Nat → List Token → Option (List Phrase × List Token)
  | 0, _ => none
  | fuel + 1, tokens =>
    match tokens with
    | .closing :: rest => some ([], rest)
    | tokens => do
      let (items, rest) ← list fuel tokens
      match rest with
      | .closing :: rest => some (items.map OrderItem.expr, rest)
      | _ => none

/-- Read a clause of a window, if it is there. -/
def clause :
    Nat → Keyword → List Token → Option (List (OrderItem Phrase) × List Token)
  | 0, _, _ => none
  | fuel + 1, expected, tokens =>
    match tokens with
    | .keyword found :: .keyword .by :: rest =>
      if found = expected then list fuel rest else some ([], tokens)
    | tokens => some ([], tokens)

/-- Read the items of a list, each with its direction. -/
def list : Nat → List Token → Option (List (OrderItem Phrase) × List Token)
  | 0, _ => none
  | fuel + 1, tokens => do
    let (phrase, rest) ← parse fuel .or tokens
    match rest with
    | .keyword .descending :: .comma :: rest => do
      let (items, rest) ← list fuel rest
      return (⟨phrase, true⟩ :: items, rest)
    | .keyword .descending :: rest => return ([⟨phrase, true⟩], rest)
    | .comma :: rest => do
      let (items, rest) ← list fuel rest
      return (⟨phrase, false⟩ :: items, rest)
    | rest => return ([⟨phrase, false⟩], rest)

/-- Read the branches of a CASE. -/
def branches : Nat → List Token → Option (List (Branch Phrase) × List Token)
  | 0, _ => none
  | fuel + 1, tokens =>
    match tokens with
    | .keyword .when :: rest => do
      let (condition, rest) ← parse fuel .or rest
      match rest with
      | .keyword .thenResult :: rest => do
        let (result, rest) ← parse fuel .or rest
        let (more, rest) ← branches fuel rest
        return (⟨condition, result⟩ :: more, rest)
      | _ => none
    | tokens => some ([], tokens)

end

end Reader

end SqlSelect
