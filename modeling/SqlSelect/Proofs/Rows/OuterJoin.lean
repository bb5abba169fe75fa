import Mathlib.Data.List.Forall2
import Mathlib.Data.List.Induction
import SqlSelect.Query

/-!
# Outer joins

Joins associate to the left.  A row of a FROM tree holds an entry of every relation, or
lacks it where an outer join found no partner.  Every join puts a layer of options around
what it may leave out, so that a relation has a layer just if some row of some data lacks it:
if it came with a left or full join, or a right or full join came behind it.
-/

namespace SqlSelect

/-- The last entry of a list stands at the length of those ahead of it. -/
theorem getElem?_concat {α : Type} {entries : List α} {last entry : α} {index : Nat} :
    (entries ++ [last])[index]? = some entry ↔
      entries[index]? = some entry ∨ index = entries.length ∧ last = entry := by
  rcases Nat.lt_trichotomy index entries.length with old | rfl | beyond
  · rw [List.getElem?_append_left old]
    simp [Nat.ne_of_lt old]
  · simp
  · have none : (entries ++ [last])[index]? = none := by
      rw [List.getElem?_eq_none_iff, List.length_append, List.length_singleton]
      exact beyond
    simp [none, List.getElem?_eq_none (Nat.le_of_lt beyond), Nat.ne_of_gt beyond]

namespace JoinKind

/-- A row may lack the relation that is joined. -/
def mayLackJoined : JoinKind → Bool
  | .left | .full => true
  | .inner | .right | .cross => false

/-- A row may lack every relation ahead of the one that is joined. -/
def mayLackEarlier : JoinKind → Bool
  | .right | .full => true
  | .inner | .left | .cross => false

/-- The layers of options of each relation behind a join. -/
def extendLayers (kind : JoinKind) (layers : List Nat) : List Nat :=
  layers.map (· + kind.mayLackEarlier.toNat) ++ [kind.mayLackJoined.toNat]

/-- The layers of options of each relation of a FROM tree, given its joins. -/
def layers (kinds : List JoinKind) : List Nat :=
  kinds.foldl (fun layers kind => kind.extendLayers layers) [0]

theorem layers_concat (kinds : List JoinKind) (kind : JoinKind) :
    layers (kinds ++ [kind]) = kind.extendLayers (layers kinds) := by
  rw [layers, List.foldl_append]
  rfl

@[simp] theorem length_extendLayers (kind : JoinKind) (layers : List Nat) :
    (kind.extendLayers layers).length = layers.length + 1 := by
  simp [extendLayers]

@[simp] theorem length_layers (kinds : List JoinKind) :
    (layers kinds).length = kinds.length + 1 := by
  induction kinds using List.reverseRecOn with
  | nil => rfl
  | append_singleton kinds kind ih => simp [layers_concat, ih]

theorem getElem?_extendLayers {kind : JoinKind} {layers : List Nat} {index count : Nat} :
    (kind.extendLayers layers)[index]? = some count ↔
      (∃ before, layers[index]? = some before ∧ before + kind.mayLackEarlier.toNat = count) ∨
      index = layers.length ∧ kind.mayLackJoined.toNat = count := by
  rw [extendLayers, getElem?_concat, List.getElem?_map, Option.map_eq_some_iff,
    List.length_map]

/-- The relation at `index` came with a left or full join, or there is a right or full join
behind it. -/
def MayLack (kinds : List JoinKind) (index : Nat) : Prop :=
  (∃ place kind, index = place + 1 ∧ kinds[place]? = some kind ∧ kind.mayLackJoined = true) ∨
    ∃ place kind, index ≤ place ∧ kinds[place]? = some kind ∧ kind.mayLackEarlier = true

theorem mayLack_concat {kinds : List JoinKind} {kind : JoinKind} {index : Nat} :
    MayLack (kinds ++ [kind]) index ↔
      MayLack kinds index ∨
      index = kinds.length + 1 ∧ kind.mayLackJoined = true ∨
      index ≤ kinds.length ∧ kind.mayLackEarlier = true := by
  simp only [MayLack, getElem?_concat]
  constructor
  · rintro (⟨place, other, rfl, known | ⟨rfl, rfl⟩, lacks⟩ |
      ⟨place, other, later, known | ⟨rfl, rfl⟩, lacks⟩)
    · exact .inl (.inl ⟨place, other, rfl, known, lacks⟩)
    · exact .inr (.inl ⟨rfl, lacks⟩)
    · exact .inl (.inr ⟨place, other, later, known, lacks⟩)
    · exact .inr (.inr ⟨later, lacks⟩)
  · rintro ((⟨place, other, same, known, lacks⟩ | ⟨place, other, later, known, lacks⟩) |
      ⟨same, lacks⟩ | ⟨later, lacks⟩)
    · exact .inl ⟨place, other, same, .inl known, lacks⟩
    · exact .inr ⟨place, other, later, .inl known, lacks⟩
    · exact .inl ⟨kinds.length, kind, same, .inr ⟨rfl, rfl⟩, lacks⟩
    · exact .inr ⟨kinds.length, kind, later, .inr ⟨rfl, rfl⟩, lacks⟩

/-- No relation lies behind the last join. -/
theorem not_mayLack_of_length {kinds : List JoinKind} :
    ¬ MayLack kinds (kinds.length + 1) := by
  rintro (⟨place, kind, same, found, _⟩ | ⟨place, kind, later, found, _⟩)
  · have := (List.getElem?_eq_some_iff.mp found).1
    omega
  · have := (List.getElem?_eq_some_iff.mp found).1
    omega

theorem layers_pos_iff {kinds : List JoinKind} {index count : Nat}
    (found : (layers kinds)[index]? = some count) : 0 < count ↔ MayLack kinds index := by
  induction kinds using List.reverseRecOn generalizing count with
  | nil =>
      cases index with
      | zero =>
          cases found
          simp [MayLack]
      | succ index => cases found
  | append_singleton kinds kind ih =>
      rw [layers_concat, getElem?_extendLayers, length_layers] at found
      rw [mayLack_concat]
      rcases found with ⟨before, foundBefore, rfl⟩ | ⟨rfl, rfl⟩
      · have old := (List.getElem?_eq_some_iff.mp foundBefore).1
        rw [length_layers] at old
        have within : index ≤ kinds.length := by omega
        have notLast : index ≠ kinds.length + 1 := by omega
        rw [Nat.add_pos_iff_pos_or_pos, ih foundBefore]
        cases kind <;> simp [within, notLast, mayLackEarlier]
      · have beyond : ¬ kinds.length + 1 ≤ kinds.length := by omega
        cases kind <;> simp [not_mayLack_of_length, beyond, mayLackJoined]

end JoinKind

/-! ## Rows of a FROM tree -/

/-- A relation that is joined: its rows, and which of them go with a row ahead of it. -/
structure Joined (α : Type) where
  kind : JoinKind
  rows : List α
  on : List (Option α) → α → Bool

namespace Joined

variable {α : Type}

/-- A row ahead of the join goes with an own row.  A cross join has no condition. -/
def pairs (joined : Joined α) (row : List (Option α)) (own : α) : Bool :=
  decide (joined.kind = .cross) || joined.on row own

/-- The rows behind a join to `width` relations: all pairs, then the rows of either side
that have no partner and are kept. -/
def extend (joined : Joined α) (width : Nat) (earlier : List (List (Option α))) :
    List (List (Option α)) :=
  (earlier.flatMap fun row =>
    (joined.rows.filter (joined.pairs row)).map fun own => row ++ [some own]) ++
  ((earlier.filter fun row => joined.kind.mayLackJoined && !joined.rows.any (joined.pairs row)).map
    fun row => row ++ [none]) ++
  ((joined.rows.filter fun own =>
      joined.kind.mayLackEarlier && !earlier.any fun row => joined.pairs row own).map
    fun own => List.replicate width none ++ [some own])

/-- Extend the rows of `width` relations by one join after another. -/
def extendAll (width : Nat) (rows : List (List (Option α))) :
    List (Joined α) → List (List (Option α))
  | [] => rows
  | joined :: later => extendAll (width + 1) (joined.extend width rows) later

/-- The rows of a FROM tree: those of its first relation, extended by its joins. -/
def evaluate (first : List α) (joins : List (Joined α)) : List (List (Option α)) :=
  extendAll 1 (first.map fun own => [some own]) joins

theorem extendAll_concat (width : Nat) (rows : List (List (Option α))) (joins : List (Joined α))
    (joined : Joined α) :
    extendAll width rows (joins ++ [joined]) =
      joined.extend (width + joins.length) (extendAll width rows joins) := by
  induction joins generalizing width rows with
  | nil => rfl
  | cons next rest ih =>
      rw [List.cons_append, extendAll, ih, List.length_cons, Nat.add_right_comm,
        Nat.add_assoc width, extendAll]

theorem evaluate_concat (first : List α) (joins : List (Joined α)) (joined : Joined α) :
    evaluate first (joins ++ [joined]) =
      joined.extend (joins.length + 1) (evaluate first joins) := by
  rw [evaluate, extendAll_concat, Nat.add_comm 1, evaluate]

/-- A row lacks relations only where they have a layer. -/
def Covers (layers : List Nat) (row : List (Option α)) : Prop :=
  List.Forall₂ (fun count entry => entry = none → 0 < count) layers row

theorem Covers.snoc {layers : List Nat} {row : List (Option α)} {count : Nat} {entry : Option α}
    (covers : Covers layers row) (last : entry = none → 0 < count) :
    Covers (layers ++ [count]) (row ++ [entry]) := by
  induction covers with
  | nil => exact .cons last .nil
  | cons head _ ih => exact .cons head ih

theorem Covers.add {layers : List Nat} {row : List (Option α)} (covers : Covers layers row)
    (more : Nat) : Covers (layers.map (· + more)) row := by
  induction covers with
  | nil => exact .nil
  | cons head _ ih => exact .cons (fun lacks => Nat.add_pos_left (head lacks) more) ih

theorem Covers.positive {layers : List Nat} {row : List (Option α)} (covers : Covers layers row)
    {index count : Nat} (found : layers[index]? = some count) (lacks : row[index]? = some none) :
    0 < count := by
  induction covers generalizing index with
  | nil => cases found
  | cons head _ ih =>
      cases index with
      | zero =>
          cases found
          exact head (Option.some.inj lacks)
      | succ index => exact ih found lacks

theorem covers_replicate (layers : List Nat) {more : Nat} (positive : 0 < more) :
    Covers (layers.map (· + more)) (List.replicate layers.length (none : Option α)) := by
  induction layers with
  | nil => exact .nil
  | cons count rest ih => exact .cons (fun _ => Nat.add_pos_right count positive) ih

theorem covers_extend {joined : Joined α} {layers : List Nat} {earlier : List (List (Option α))}
    (covers : ∀ row ∈ earlier, Covers layers row) :
    ∀ row ∈ joined.extend layers.length earlier, Covers (joined.kind.extendLayers layers) row := by
  intro row member
  simp only [extend, List.mem_append, List.mem_flatMap, List.mem_map, List.mem_filter,
    Bool.and_eq_true] at member
  rcases member with (⟨old, known, own, _, rfl⟩ | ⟨old, ⟨known, lacks, _⟩, rfl⟩) |
    ⟨own, ⟨_, lacks, _⟩, rfl⟩
  · exact ((covers old known).add _).snoc nofun
  · exact ((covers old known).add _).snoc fun _ => by rw [lacks]; decide
  · exact (covers_replicate layers (by rw [lacks]; decide)).snoc nofun

theorem covers_evaluate (first : List α) (joins : List (Joined α)) :
    ∀ row ∈ evaluate first joins, Covers (JoinKind.layers (joins.map kind)) row := by
  induction joins using List.reverseRecOn with
  | nil =>
      intro row member
      obtain ⟨own, _, rfl⟩ := List.mem_map.mp member
      exact .cons nofun .nil
  | append_singleton joins joined ih =>
      have width : joins.length + 1 = (JoinKind.layers (joins.map kind)).length := by simp
      rw [evaluate_concat, List.map_append, List.map_singleton, JoinKind.layers_concat, width]
      exact covers_extend ih

/-! ### Data that shows what may be lacking -/

variable {joined : Joined α} {width : Nat} {earlier : List (List (Option α))}
variable {row : List (Option α)} {own : α}

theorem mem_extend_of_pairs (known : row ∈ earlier) (listed : own ∈ joined.rows)
    (partners : joined.pairs row own = true) :
    row ++ [some own] ∈ joined.extend width earlier := by
  simp only [extend, List.mem_append, List.mem_flatMap, List.mem_map, List.mem_filter]
  exact .inl (.inl ⟨row, known, own, ⟨listed, partners⟩, rfl⟩)

theorem mem_extend_of_lone (known : row ∈ earlier) (keeps : joined.kind.mayLackJoined = true)
    (lone : ∀ own ∈ joined.rows, joined.pairs row own = false) :
    row ++ [none] ∈ joined.extend width earlier := by
  simp only [extend, List.mem_append, List.mem_flatMap, List.mem_map, List.mem_filter]
  exact .inl (.inr ⟨row, ⟨known, by simpa [keeps] using lone⟩, rfl⟩)

theorem mem_extend_of_unmet (listed : own ∈ joined.rows)
    (keeps : joined.kind.mayLackEarlier = true)
    (unmet : ∀ row ∈ earlier, joined.pairs row own = false) :
    List.replicate width none ++ [some own] ∈ joined.extend width earlier := by
  simp only [extend, List.mem_append, List.mem_flatMap, List.mem_map, List.mem_filter]
  exact .inr ⟨own, ⟨listed, by simpa [keeps] using unmet⟩, rfl⟩

/-- Some data has a row for any joins. -/
theorem exists_row [Inhabited α] (kinds : List JoinKind) :
    ∃ (first : List α) (joins : List (Joined α)), joins.map kind = kinds ∧
      ∃ row, row ∈ evaluate first joins := by
  induction kinds using List.reverseRecOn with
  | nil => exact ⟨[default], [], rfl, [some default], by simp [evaluate, extendAll]⟩
  | append_singleton kinds kind ih =>
      obtain ⟨first, joins, rfl, row, known⟩ := ih
      refine ⟨first, joins ++ [⟨kind, [default], fun _ _ => true⟩], by simp,
        row ++ [some default], ?_⟩
      rw [evaluate_concat]
      exact mem_extend_of_pairs known (List.mem_singleton_self _) (by simp [pairs])

/-- A relation that may be lacking is lacking in some row of some data. -/
theorem exists_lacking [Inhabited α] {kinds : List JoinKind} {index : Nat}
    (lacking : JoinKind.MayLack kinds index) :
    ∃ (first : List α) (joins : List (Joined α)), joins.map kind = kinds ∧
      ∃ row ∈ evaluate first joins, row[index]? = some none := by
  induction kinds using List.reverseRecOn with
  | nil => simp [JoinKind.MayLack] at lacking
  | append_singleton kinds kind ih =>
      rcases JoinKind.mayLack_concat.mp lacking with before | ⟨rfl, keeps⟩ | ⟨within, keeps⟩
      · -- Whatever lacked it goes on with a partner.
        obtain ⟨first, joins, rfl, row, known, lacks⟩ := ih before
        refine ⟨first, joins ++ [⟨kind, [default], fun _ _ => true⟩], by simp,
          row ++ [some default], ?_, ?_⟩
        · rw [evaluate_concat]
          exact mem_extend_of_pairs known (List.mem_singleton_self _) (by simp [pairs])
        · rw [getElem?_concat]
          exact .inl lacks
      · -- The joined relation has no rows.
        obtain ⟨first, joins, rfl, row, known⟩ := exists_row (α := α) kinds
        refine ⟨first, joins ++ [⟨kind, [], fun _ _ => true⟩], by simp, row ++ [none], ?_, ?_⟩
        · rw [evaluate_concat]
          exact mem_extend_of_lone known keeps nofun
        · have covers := covers_evaluate first joins row known
          have length := covers.length_eq
          rw [JoinKind.length_layers] at length
          rw [getElem?_concat]
          exact .inr ⟨length, rfl⟩
      · -- The joined relation has a row that goes with none.
        obtain ⟨first, joins, rfl, _⟩ := exists_row (α := α) kinds
        have conditional : kind ≠ .cross := by
          rintro rfl
          cases keeps
        refine ⟨first, joins ++ [⟨kind, [default], fun _ _ => false⟩], by simp,
          List.replicate (joins.length + 1) none ++ [some default], ?_, ?_⟩
        · rw [evaluate_concat]
          exact mem_extend_of_unmet (List.mem_singleton_self _) keeps
            fun _ _ => by simp [pairs, conditional]
        · rw [List.length_map] at within
          rw [getElem?_concat, List.getElem?_replicate_of_lt (by omega)]
          exact .inl rfl

/-- A relation has a layer just if some row of some data lacks it. -/
theorem layers_pos_iff_lacking [Inhabited α] {kinds : List JoinKind} {index count : Nat}
    (found : (JoinKind.layers kinds)[index]? = some count) :
    0 < count ↔
      ∃ (first : List α) (joins : List (Joined α)), joins.map kind = kinds ∧
        ∃ row ∈ evaluate first joins, row[index]? = some none := by
  constructor
  · intro positive
    exact exists_lacking ((JoinKind.layers_pos_iff found).mp positive)
  · rintro ⟨first, joins, rfl, row, known, lacks⟩
    exact (covers_evaluate first joins row known).positive found lacks

end Joined

end SqlSelect
