import SqlSelect.Proofs.Building.Change
import SqlSelect.Proofs.Prepared.Alignment
import SqlSelect.Proofs.Rows.OuterJoin
import SqlSelect.Proofs.Rows.Record

/-!
# Rows of statements without a SELECT list

Such a statement lists all columns of every source, in the order of its FROM tree.  Its
shape has one element for each source, behind the layers of options that the joins put
around it, and a row of the cells of each source decodes to those sources.
-/

namespace SqlSelect

/-! ## The SELECT list -/

/-- The entries of a SELECT list that shows every column of some aliases. -/
def Query.everyColumnText (aliases : List Alias) : String :=
  ", ".intercalate (aliases.map fun handle => handle.displayName ++ ".*")

/-- The declarations of the common tables that a statement needs, as they stand ahead of
it. -/
def Query.withClause (database : Database) (query : Query) : String :=
  String.join (Piece.spell database.dialect 0 (Piece.hoisted
    ((query.hoisted database.dialect.windowClauses).map (CommonQuery.table database)) []))

namespace Piece

theorem hoisted_append (tables : List CommonTable) (body : List Piece) :
    hoisted tables body = hoisted tables [] ++ body := by
  cases tables <;> simp [hoisted]

theorem spell_everyColumn (dialect : Dialect) (written : Nat) (aliases : List Alias)
    (more : List Piece) :
    String.join (spell dialect written
        (Lexeme.allPieces dialect (Query.everyColumn aliases) ++ more)) =
      Query.everyColumnText aliases ++ String.join (spell dialect written more) := by
  induction aliases with
  | nil => rfl
  | cons handle rest ih =>
      cases rest with
      | nil =>
          simp [Query.everyColumn, Lexeme.separated, Lexeme.pieces, Query.everyColumnText, spell,
            String.append_assoc]
      | cons second others =>
          have split : Query.everyColumn (handle :: second :: others) =
              .word handle.displayName :: .word ".*" :: .comma ::
                Query.everyColumn (second :: others) := rfl
          simp only [Query.everyColumnText, List.map_cons] at ih
          simp only [split, Lexeme.allPieces_cons, Lexeme.pieces, List.cons_append,
            List.nil_append, spell, String.join_cons, ih, Query.everyColumnText, List.map_cons,
            String.intercalate_cons_cons, String.append_assoc]

end Piece

theorem Query.exists_lexemes_of_unprojected {query : Query} (database : Database)
    (unprojected : query.projection = []) (plain : query.distinct = false) :
    ∃ rest, query.lexemes database =
      .word "select " :: (Query.everyColumn (query.sources.map Source.alias) ++
        .word " from " :: rest) := by
  cases query
  subst unprojected plain
  simp only [Query.lexemes, Query.sources, List.isEmpty_nil, if_true, List.map_cons,
    List.map_map, List.append_assoc, List.cons_append, Bool.false_eq_true, if_false]
  exact ⟨_, rfl⟩

theorem Query.Prepares.text_of_unprojected {database : Database} {query : Query}
    {prepared : Prepared} (prepares : query.Prepares database prepared)
    (unprojected : query.projection = []) (plain : query.distinct = false) :
    ∃ behind, prepared.text = query.withClause database ++ "select " ++
      Query.everyColumnText (query.sources.map Source.alias) ++ " from " ++ behind := by
  obtain ⟨rest, lexemes⟩ := query.exists_lexemes_of_unprojected database unprojected plain
  rw [prepares.text, Query.pieces, Piece.hoisted_append, Piece.spell_append, String.join_append,
    lexemes]
  simp only [Lexeme.allPieces_cons, Lexeme.allPieces_append, Lexeme.pieces, List.cons_append,
    List.nil_append, Piece.spell, String.join_cons]
  rw [Piece.spell_everyColumn]
  simp only [Piece.spell, String.join_cons, Query.withClause, String.append_assoc]
  exact ⟨_, rfl⟩

/-! ## FROM trees -/

/-- A first source, and what is joined to it. -/
structure FromTree where
  first : Source
  joins : List (JoinKind × Source)

namespace FromTree

/-- The sources, in the order of the tree. -/
def sources (tree : FromTree) : List Source :=
  tree.first :: tree.joins.map Prod.snd

/-- The tables of the sources. -/
def tables (tree : FromTree) : List Table :=
  tree.sources.map fun source => source.alias.table

def kinds (tree : FromTree) : List JoinKind :=
  tree.joins.map Prod.fst

/-- The layers of options of each source. -/
def layers (tree : FromTree) : List Nat :=
  JoinKind.layers tree.kinds

def join (tree : FromTree) (kind : JoinKind) (source : Source) : FromTree :=
  { tree with joins := tree.joins ++ [(kind, source)] }

/-- The tree behind a step. -/
def take (tree : FromTree) : Step → FromTree
  | .join kind source => tree.join kind source
  | _ => tree

/-- The tree behind some steps, of which those that are not allowed do nothing. -/
def grow (tree : FromTree) (stage : Stage) : List Step → FromTree
  | [] => tree
  | step :: rest =>
    match step.next? stage with
    | some next => (tree.take step).grow next rest
    | none => tree.grow stage rest

@[simp] theorem length_tables (tree : FromTree) : tree.tables.length = tree.joins.length + 1 := by
  simp [tables, sources]

@[simp] theorem length_layers (tree : FromTree) : tree.layers.length = tree.joins.length + 1 := by
  simp [layers, kinds]

end FromTree

/-- The FROM tree of a query. -/
def Query.tree (query : Query) : FromTree :=
  ⟨query.source, query.joins.map fun join => (join.kind, join.source)⟩

theorem Query.sources_tree (query : Query) : query.tree.sources = query.sources := by
  simp [tree, FromTree.sources, sources]

/-! ## The shape -/

/-- Both have the same SELECT list and the same FROM tree. -/
structure Query.SameRows (query changed : Query) : Prop where
  projection : changed.projection = query.projection
  distinct : changed.distinct = query.distinct
  tree : changed.tree = query.tree

theorem Query.SameRows.refl (query : Query) : query.SameRows query :=
  ⟨rfl, rfl, rfl⟩

theorem Query.sameRows_mapLastOn (query : Query) (change : Option Expr → Expr) :
    query.SameRows (query.mapLastOn change) := by
  rw [mapLastOn]
  split
  case h_1 last found =>
    obtain ⟨earlier, joins⟩ := List.getLast?_eq_some_iff.mp found
    exact ⟨rfl, rfl, by simp [tree, joins]⟩
  case h_2 => exact .refl query

/-- What a join does to the shape, it does to the layers of options. -/
theorem Shape.extend_ofParts (kind : JoinKind) {layers : List Nat} {tables : List Table}
    (lengths : layers.length = tables.length) (joined : Table) :
    kind.extendShape (RowType.ofParts layers tables) (.record joined) =
      RowType.ofParts (kind.extendLayers layers) (tables ++ [joined]) := by
  have wrapped : Shape.nullable (RowType.ofParts layers tables) =
      RowType.ofParts (layers.map (· + 1)) tables := by
    rw [Shape.nullable, RowType.ofParts, RowType.ofParts, List.map_zipWith, List.zipWith_map_left]
    rfl
  have last (layers : List Nat) (count : Nat) (lengths : layers.length = tables.length) :
      RowType.ofParts (layers ++ [count]) (tables ++ [joined]) =
        RowType.ofParts layers tables ++ [RowType.layered count (.record joined)] := by
    rw [RowType.ofParts, List.map_append, List.zipWith_append (by simpa using lengths)]
    rfl
  rw [JoinKind.extendLayers, last _ _ (by simpa using lengths)]
  cases kind <;> simp [JoinKind.extendShape, JoinKind.mayLackEarlier, JoinKind.mayLackJoined,
    wrapped, RowType.layered]

/-- A statement has a FROM tree and no SELECT list, and its shape is that of the tree. -/
structure Select.Unprojected (select : Select) (tree : FromTree) : Prop where
  projection : select.query.projection = []
  distinct : select.query.distinct = false
  stage : select.stage ≠ .inProjection
  reads : select.query.tree = tree
  shape : select.shape = RowType.ofParts tree.layers tree.tables

namespace Select.Unprojected

variable {select : Select} {tree : FromTree}

theorem start (scope : Scope) (source : Source) :
    (Select.start scope source).Unprojected ⟨source, []⟩ :=
  ⟨rfl, rfl, nofun, rfl, rfl⟩

theorem join (unprojected : select.Unprojected tree) (kind : JoinKind) (source : Source)
    {stage : Stage} (elsewhere : stage ≠ .inProjection) :
    { select.join kind source with stage }.Unprojected (tree.join kind source) := by
  have known := unprojected.reads
  refine ⟨unprojected.projection, unprojected.distinct, elsewhere, ?_, ?_⟩
  · rw [← known]
    simp [Select.join, Query.tree, FromTree.join]
  · have lengths : tree.layers.length = tree.tables.length := by simp
    rw [Select.join, unprojected.shape, Shape.extend_ofParts kind lengths]
    simp [FromTree.join, FromTree.layers, FromTree.kinds, FromTree.tables, FromTree.sources,
      JoinKind.layers_concat]

/-- A change that keeps the SELECT list and the FROM tree keeps the shape. -/
theorem amend (unprojected : select.Unprojected tree) {result : Except QueryError Query}
    (same : ∀ changed, result = .ok changed → select.query.SameRows changed) {stage : Stage}
    (elsewhere : stage ≠ .inProjection) :
    { select.amend result with stage }.Unprojected tree := by
  cases result with
  | error _ =>
      exact ⟨unprojected.projection, unprojected.distinct, elsewhere, unprojected.reads,
        unprojected.shape⟩
  | ok changed =>
      have same := same changed rfl
      exact ⟨same.projection.trans unprojected.projection,
        same.distinct.trans unprojected.distinct, elsewhere,
        same.tree.trans unprojected.reads, unprojected.shape⟩

/-- A term is bound, and its expression is written outside of the SELECT list. -/
theorem amend_bind (unprojected : select.Unprojected tree) {term : Term}
    {write : Expr → Except QueryError Query}
    (same : ∀ expr changed, write expr = .ok changed → select.query.SameRows changed)
    {stage : Stage} (elsewhere : stage ≠ .inProjection) :
    { select.amend (select.bindTerm term >>= write) with stage }.Unprojected tree := by
  apply unprojected.amend _ elsewhere
  intro changed made
  obtain ⟨expr, _, written⟩ := except_bind_ok.mp made
  exact same expr changed written

/-- A step that projects nothing writes outside of the SELECT list. -/
theorem sameRows_write {query changed : Query} {step : Step} {expr : Expr}
    (unlisted : ∀ term label, step ≠ .select term label) (stage : Stage)
    (elsewhere : stage ≠ .inProjection) (writes : step.write query stage expr = .ok changed) :
    query.SameRows changed := by
  cases step with
  | on condition =>
      simp only [Step.write, Query.joinOn] at writes
      split at writes
      · split at writes <;> cases writes
        exact query.sameRows_mapLastOn _
      · cases writes
        exact .refl _
  | extend connective condition =>
      simp only [Step.write] at writes
      split at writes
      · rename_i clause _
        cases writes
        cases clause with
        | on =>
            rw [Query.extendClause]
            exact query.sameRows_mapLastOn _
        | filter | having => exact ⟨rfl, rfl, rfl⟩
      · cases writes
        exact .refl _
  | select term label => exact (unlisted term label rfl).elim
  | comma term label =>
      simp only [Step.write, elsewhere, if_false] at writes
      cases writes
      exact ⟨rfl, rfl, rfl⟩
  | _ =>
      cases writes
      exact ⟨rfl, rfl, rfl⟩

theorem apply (unprojected : select.Unprojected tree) {step : Step}
    (unlisted : ∀ term label, step ≠ .select term label) {next : Stage}
    (allowed : step.next? select.stage = some next) :
    (select.apply step).Unprojected (tree.take step) := by
  have before := unprojected.stage
  have elsewhere : next ≠ .inProjection := by
    rintro rfl
    cases step with
    | join kind _ => cases kind <;> simp [Step.next?] at allowed
    | select term label => exact unlisted term label rfl
    | _ => simp_all [Step.next?]
  have written : ∀ expr changed, step.write select.query select.stage expr = .ok changed →
      select.query.SameRows changed := fun _ _ => sameRows_write unlisted select.stage before
  rw [Select.apply_of_next? allowed]
  cases step with
  | join kind source => exact unprojected.join kind source elsewhere
  | select term label => exact (unlisted term label rfl).elim
  | distinct => simp [Step.next?, before] at allowed
  | extend connective condition =>
      rw [Step.next?] at allowed
      cases clause : select.stage.clause? with
      | none => simp [clause] at allowed
      | some found =>
          simp only [Step.write, clause] at written
          simp only [edit, clause]
          exact unprojected.amend_bind written elsewhere
  | comma term label =>
      simp only [Step.write, before, if_false] at written
      simp only [edit, before, if_false]
      exact unprojected.amend_bind written elsewhere
  | on _ | filter _ | groupBy _ | having _ | orderBy _ _ | thenBy _ _ =>
      exact unprojected.amend_bind written elsewhere
  | union operator operand =>
      apply unprojected.amend _ elsewhere
      intro changed made
      simp only [except_bind_ok, except_pure_ok] at made
      obtain ⟨_, _, _, _, rfl⟩ := made
      exact ⟨rfl, rfl, rfl⟩
  | fetchFirst _ | offset _ | isolation _ | lock _ =>
      exact ⟨unprojected.projection, unprojected.distinct, elsewhere, unprojected.reads,
        unprojected.shape⟩

/-- The FROM tree of a statement is what its steps join. -/
theorem run (unprojected : select.Unprojected tree) {steps : List Step}
    (unlisted : ∀ step ∈ steps, ∀ term label, step ≠ .select term label) :
    (select.run steps).Unprojected (tree.grow select.stage steps) := by
  induction steps generalizing select tree with
  | nil => exact unprojected
  | cons step rest ih =>
      have first := unlisted step List.mem_cons_self
      have later : ∀ other ∈ rest, ∀ term label, other ≠ .select term label :=
        fun other member => unlisted other (List.mem_cons_of_mem step member)
      rw [run_cons, FromTree.grow]
      cases allowed : step.next? select.stage with
      | none =>
          have still : select.apply step = select := by rw [Select.apply, allowed]
          rw [still]
          exact ih unprojected later
      | some next =>
          have stage : (select.apply step).stage = next := by rw [Select.apply_of_next? allowed]
          have applied := ih (unprojected.apply first allowed) later
          rwa [stage] at applied

end Select.Unprojected

/-! ## Default rows -/

/-- The SELECT list, the shape and the decoded rows of a statement all follow its FROM
tree. -/
structure Select.FollowsTree (select : Select) (tree : FromTree) : Prop where
  /-- All columns of every source are listed, in the order of the tree. -/
  listed : ∀ prepared, select.prepare = .ok prepared → ∃ behind,
    prepared.text = select.query.withClause select.scope.database ++ "select " ++
      Query.everyColumnText (tree.sources.map Source.alias) ++ " from " ++ behind
  /-- The shape has the record of each source, behind its layers of options. -/
  shape : select.shape = RowType.ofParts tree.layers tree.tables
  aligned : tree.layers.length = tree.sources.length
  /-- A source is optional just if it came with a left or full join, or a right or full join
  came behind it. -/
  optional_iff : ∀ index count : Nat, tree.layers[index]? = some count →
    (0 < count ↔ JoinKind.MayLack tree.kinds index)
  /-- A source is optional just if some row of some data lacks it. -/
  optional_iff_lacking : ∀ index count : Nat, tree.layers[index]? = some count →
    (0 < count ↔ ∃ (first : List (List Value)) (joins : List (Joined (List Value))),
      joins.map Joined.kind = tree.kinds ∧
        ∃ row ∈ Joined.evaluate first joins, row[index]? = some none)
  /-- A row made of a part of each source decodes to these parts. -/
  decodes : ∀ parts : List Part, parts.map Part.table = tree.tables →
    List.Forall₂ Part.Fits tree.layers parts →
    select.rowType.decode ⟨parts.flatMap Part.cells⟩ =
      .ok (.ofElements (List.zipWith Part.datum tree.layers parts))

/-- Without a SELECT list, a statement lists its sources, and its rows decode to them. -/
theorem Select.follows_tree (scope : Scope) (source : Source) (steps : List Step)
    (unlisted : ∀ step ∈ steps, ∀ term label, step ≠ .select term label) :
    ((Select.start scope source).run steps).FollowsTree
      (FromTree.grow ⟨source, []⟩ .joining steps) := by
  have unprojected := (Unprojected.start scope source).run unlisted
  have stage : (Select.start scope source).stage = .joining := rfl
  rw [stage] at unprojected
  refine ⟨?listed, unprojected.shape, ?aligned, fun _ _ => JoinKind.layers_pos_iff,
    fun _ _ => Joined.layers_pos_iff_lacking, ?decodes⟩
  case listed =>
    intro prepared prepares
    have text := (Select.prepares_of_prepare prepares).text_of_unprojected
      unprojected.projection unprojected.distinct
    rwa [← Query.sources_tree, unprojected.reads] at text
  case aligned => simp [FromTree.sources]
  case decodes =>
    intro parts tables fits
    rw [Select.rowType, unprojected.shape, ← tables]
    exact RowType.decode_ofParts fits

/-! ## Persons with their children and siblings -/

namespace Sample

def sibling : Alias := ⟨2, some "s", person⟩

def kinshipSteps : List Step :=
  [.join .left (.ofTable child),
    .on (.binary .equal (.column person key (.only child)) (.column person key (.only parent))),
    .join .full (.ofTable sibling),
    .on (.binary .equal (.column person key (.only sibling)) (.column person key (.only child)))]

def kinship : Select :=
  (Database.select ⟨.sqlite, none⟩ (.ofTable parent)).run kinshipSteps

def kinshipTree : FromTree :=
  ⟨.ofTable parent, [(.left, .ofTable child), (.full, .ofTable sibling)]⟩

def person4 : Record person :=
  ⟨[some (.bigInt 4)], .cons ⟨by simp [key, Scalar.type], nofun⟩ .nil⟩

/-- A child without a parent or siblings. -/
def kinshipParts : List Part :=
  [⟨person, none⟩, ⟨person, some person4⟩, ⟨person, none⟩]

theorem kinship_follows_tree :
    (∀ step ∈ kinshipSteps, ∀ term label, step ≠ .select term label) ∧
      kinship.FollowsTree kinshipTree ∧ kinshipTree.layers = [1, 2, 1] ∧
      kinship.text = .ok ("select p.*, c.*, s.* from PERSON as p left join PERSON as c" ++
        " on c.KEY = p.KEY full outer join PERSON as s on s.KEY = c.KEY") ∧
      kinship.rowType.decode ⟨[.null, .integer 4, .null]⟩ =
        .ok (.tuple [.absent, .present (.present person4.datum), .absent]) := by
  have unlisted : ∀ step ∈ kinshipSteps, ∀ term label, step ≠ .select term label := by
    simp [kinshipSteps]
  have follows : kinship.FollowsTree kinshipTree := Select.follows_tree _ _ _ unlisted
  have fits : List.Forall₂ Part.Fits kinshipTree.layers kinshipParts := by
    refine .cons ⟨by decide, nofun⟩ (.cons ⟨nofun, ?_⟩ (.cons ⟨by decide, nofun⟩ .nil))
    rintro _ ⟨⟩ _
    exact ⟨.integer 4, List.mem_cons_self, nofun⟩
  exact ⟨unlisted, follows, rfl, rfl, follows.decodes kinshipParts rfl fits⟩

end Sample

end SqlSelect
