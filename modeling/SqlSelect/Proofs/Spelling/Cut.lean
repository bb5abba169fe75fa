import SqlSelect.Proofs.Spelling.Neat

/-!
# Where the text is cut

Symbols that may stand side by side do not run together: behind a word with no blank of its own
comes a gap or a parenthesis, and behind a minus sign no other sign.  So the lexer cuts the text
of an expression into the tokens of its symbols, one symbol after another.
-/

namespace SqlSelect

namespace Glyph

/-- The glyph belongs to no run but its own. -/
def isLoose (glyph : Glyph) : Bool :=
  !glyph.isLetter && !glyph.isSign

variable {first second : Glyph}

theorem not_joins_of_isLoose_left (loose : first.isLoose = true) : first.joins second = false := by
  simp only [isLoose, Bool.and_eq_true, Bool.not_eq_true'] at loose
  simp [joins, loose]

theorem not_joins_of_isLoose_right (loose : second.isLoose = true) :
    first.joins second = false := by
  simp only [isLoose, Bool.and_eq_true, Bool.not_eq_true'] at loose
  simp [joins, loose]

end Glyph

namespace Lexeme

variable (dialect : Dialect) {lexeme : Lexeme}

/-- Whatever can be written has a text. -/
theorem glyphs_ne_nil (writable : ∀ error, lexeme ≠ .fault error) :
    lexeme.glyphs dialect ≠ [] := by
  intro empty
  have tokens := lexeme.tokens?_glyphs dialect
  rw [empty] at tokens
  exact cut_ne_nil dialect writable (Option.some.inj tokens).symm

theorem isLoose_of_opensGap (gap : lexeme.opensGap = true) :
    ∀ next ∈ (lexeme.glyphs dialect).head?, next.isLoose = true := by
  intro next member
  cases lexeme with
  | word text =>
      cases member
      rfl
  | operator symbol =>
      rw [glyphs_operator] at member
      cases symbol <;> (cases member; rfl)
  | between negated | like negated | isIn negated | isNull negated =>
      cases negated <;> (cases member; rfl)
  | orderBy following =>
      cases following with
      | false => cases gap
      | true =>
          cases member
          rfl
  | closing _ | comma | asType _ | «over» | descending | when | thenResult | otherwise
  | endCase =>
      cases member
      rfl
  | fault _ => cases member
  | _ => cases gap

theorem not_isSign_of_opensOperand (operand : lexeme.opensOperand = true) :
    ∀ next ∈ (lexeme.glyphs dialect).head?, next.isSign = false := by
  intro next member
  cases lexeme with
  | literal value =>
      rw [opensOperand, Bool.not_eq_true'] at operand
      rw [glyphs, Dialect.literalGlyphs, operand, Bool.false_and,
        if_neg Bool.false_ne_true] at member
      cases member
      rfl
  | function called =>
      rw [glyphs_function] at member
      cases called with
      | length | substring => cases dialect <;> (cases member; rfl)
      | _ =>
          unfold Dialect.functionName at member
          split at member <;> first | contradiction | (cases member; rfl)
  | argument _ | column _ | opening _ | concat | cast | case =>
      cases member
      rfl
  | fault _ => cases member
  | _ => cases operand

theorem isLoose_of_demand (free : lexeme.demand = .nothing) :
    ∀ last ∈ (lexeme.glyphs dialect).getLast?, last.isLoose = true := by
  intro last member
  cases lexeme with
  | operator symbol =>
      rw [glyphs_operator] at member
      cases symbol <;> (cases member; rfl)
  | between negated | like negated | isIn negated | «exists» negated =>
      cases negated <;> (cases member; rfl)
  | orderBy following => cases following <;> (cases member; rfl)
  | word _ | argument _ | column _ | not | opening _ | closing _ | comma | distinct | asType _
  | «over» | partitionBy | when | thenResult | otherwise | query _ | common _ _ =>
      cases member
      rfl
  | fault _ => cases member
  | _ => cases free

/-- Symbols that may stand side by side do not run together. -/
theorem apart_of_follows {first second : Lexeme} (follows : Follows first second) :
    ∀ last ∈ (first.glyphs dialect).getLast?, ∀ next ∈ (second.glyphs dialect).head?,
      last.joins next = false := by
  intro last lastMember next nextMember
  rw [Follows] at follows
  cases asked : first.demand with
  | nothing =>
      exact Glyph.not_joins_of_isLoose_left (isLoose_of_demand dialect asked last lastMember)
  | gap =>
      rw [asked] at follows
      exact Glyph.not_joins_of_isLoose_right (isLoose_of_opensGap dialect follows next nextMember)
  | operand =>
      have minus : first = .minus := by cases first <;> first | rfl | cases asked
      subst minus
      rw [asked] at follows
      have dash : last.isLetter = false := by
        cases lastMember
        rfl
      have unsigned := not_isSign_of_opensOperand dialect follows next nextMember
      simp [Glyph.joins, dash, unsigned]
  | parenthesis =>
      rw [asked] at follows
      have opening : ∃ grouping, second = .opening grouping := by
        cases second <;> first | exact ⟨_, rfl⟩ | cases follows
      obtain ⟨_, rfl⟩ := opening
      cases nextMember
      exact Glyph.not_joins_of_isLoose_right rfl

theorem flat_eq_or_query (lexeme : Lexeme) :
    lexeme.flat = [lexeme] ∨ ∃ body, lexeme = .query body := by
  cases lexeme with
  | query body => exact .inr ⟨body, rfl⟩
  | _ => exact .inl rfl

/-- A symbol does not run together with the rest of a row that it may stand ahead of. -/
theorem apart_of_chain {rest : List Lexeme}
    (chain : (flatten (lexeme :: rest)).IsChain Follows)
    (writable : ∀ error, .fault error ∉ rest) :
    ∀ last ∈ (lexeme.glyphs dialect).getLast?, ∀ next ∈ (allGlyphs dialect rest).head?,
      last.joins next = false := by
  intro last lastMember next nextMember
  cases rest with
  | nil => cases nextMember
  | cons second others =>
      have known : ∀ error, second ≠ .fault error := by
        rintro error rfl
        exact writable error List.mem_cons_self
      rw [allGlyphs, List.flatMap_cons, List.head?_append_of_ne_nil _
        (glyphs_ne_nil dialect known)] at nextMember
      rcases lexeme.flat_eq_or_query with flat | ⟨_, rfl⟩
      case inr =>
        cases lastMember
        exact Glyph.not_joins_of_isLoose_left rfl
      rcases second.flat_eq_or_query with secondFlat | ⟨_, rfl⟩
      case inr =>
        cases nextMember
        exact Glyph.not_joins_of_isLoose_right rfl
      rw [flatten_cons_of_flat flat, flatten_cons_of_flat secondFlat,
        List.isChain_cons_cons] at chain
      exact apart_of_follows dialect chain.1 last lastMember next nextMember

/-- The text of a row is cut into the tokens of its symbols. -/
theorem tokens?_allGlyphs {lexemes : List Lexeme} (chain : (flatten lexemes).IsChain Follows)
    (writable : ∀ error, .fault error ∉ lexemes) :
    Lexer.tokens? dialect (allGlyphs dialect lexemes) = some (tokens dialect lexemes) := by
  induction lexemes with
  | nil => rfl
  | cons lexeme rest ih =>
      have restWritable : ∀ error, .fault error ∉ rest := fun error member =>
        writable error (List.mem_cons_of_mem lexeme member)
      have restChain : (flatten rest).IsChain Follows :=
        (List.isChain_append.mp (flatten_cons lexeme rest ▸ chain)).2.1
      exact Lexer.tokens?_append (lexeme.tokens?_glyphs dialect) (ih restChain restWritable)
        (apart_of_chain dialect chain restWritable)

/-- What can be written has no part that cannot. -/
theorem Writable.not_fault_mem {lexemes : List Lexeme} (writable : Writable dialect lexemes)
    (error : QueryError) : .fault error ∉ lexemes := by
  intro member
  obtain ⟨before, after, rfl⟩ := List.append_of_mem member
  apply Piece.not_fault_of_check writable error
  rw [allPieces_append, allPieces_cons]
  exact List.mem_append_right _ (List.mem_append_left _ (List.mem_singleton.mpr rfl))

end Lexeme

/-- The glyphs of an expression's text. -/
def Expr.glyphs (database : Database) (expr : Expr) : List Glyph :=
  Lexeme.allGlyphs database.dialect (expr.lexemes database)

/-- The text of an expression is cut into its tokens. -/
theorem Expr.tokens?_glyphs {database : Database} {expr : Expr}
    (renders : Lexeme.Writable database.dialect (expr.lexemes database)) :
    Lexer.tokens? database.dialect (expr.glyphs database) =
      some (Lexeme.tokens database.dialect (expr.lexemes database)) :=
  Lexeme.tokens?_allGlyphs database.dialect (expr.neat database).chain renders.not_fault_mem

end SqlSelect
