import Mathlib.Data.List.Forall2
import SqlSelect.Proofs.Closure.Invariant
import SqlSelect.Terminal

/-!
# Running statements with any executor

A terminal asks its executor at most once, and only for a statement that can be prepared.
What it makes of the reply depends on the reply alone, so that waiting for an executor inside
or outside of a terminal comes to the same.
-/

namespace SqlSelect

/-! ## Lists of outcomes -/

section Lists

variable {α β ε : Type} {make : α → Except ε β}

theorem mapM_eq_ok_iff {items : List α} {results : List β} :
    items.mapM make = .ok results ↔
      List.Forall₂ (fun item result => make item = .ok result) items results := by
  induction items generalizing results with
  | nil => cases results <;> simp [pure, Except.pure]
  | cons item rest ih =>
      simp only [List.mapM_cons, except_bind_ok, except_pure_ok]
      constructor
      · rintro ⟨result, made, others, restMade, rfl⟩
        exact .cons made (ih.mp restMade)
      · rintro (_ | ⟨made, restMade⟩)
        exact ⟨_, made, _, ih.mpr restMade, rfl⟩

end Lists

/-! ## Replies -/

namespace RowType

/-- What a reply comes to: the error of the executor, the data of all rows in order, or the
error of the first row that does not decode. -/
inductive Decodes (type : RowType) :
    Except QueryError (List Row) → Except QueryError (List Datum) → Prop where
  | failed (error : QueryError) : Decodes type (.error error) (.error error)
  | rows {rows : List Row} {data : List Datum} :
      List.Forall₂ (fun row datum => type.decode row = .ok datum) rows data →
      Decodes type (.ok rows) (.ok data)
  | undecodable {before after : List Row} {row : Row} {error : QueryError} :
      (∀ earlier ∈ before, ∃ datum, type.decode earlier = .ok datum) →
      type.decode row = .error error →
      Decodes type (.ok (before ++ row :: after)) (.error error)

/-- Decode the rows of a reply. -/
def decodeReply (type : RowType) (reply : Except QueryError (List Row)) :
    Except QueryError (List Datum) :=
  reply.bind fun rows => rows.mapM type.decode

theorem decodes_iff {type : RowType} {reply : Except QueryError (List Row)}
    {result : Except QueryError (List Datum)} :
    type.Decodes reply result ↔ type.decodeReply reply = result := by
  constructor
  · rintro (error | ⟨data⟩ | ⟨fine, fails⟩)
    · rfl
    · exact mapM_eq_ok_iff.mpr data
    · exact mapM_error_of_first fine fails
  · rintro rfl
    cases reply with
    | error error => exact .failed error
    | ok rows =>
        change type.Decodes (.ok rows) (rows.mapM type.decode)
        cases decoded : rows.mapM type.decode with
        | ok data => exact .rows (mapM_eq_ok_iff.mp decoded)
        | error error =>
            obtain ⟨before, row, after, rfl, fine, fails⟩ := mapM_eq_error_iff.mp decoded
            exact .undecodable fine fails

end RowType

/-- What comes of the data of all rows where at most one is expected: `missing` if there is
none, and `found` of the one there is. -/
inductive Singles {β : Type} (missing : Except QueryError β) (found : Datum → β) :
    Except QueryError (List Datum) → Except QueryError β → Prop where
  | failed (error : QueryError) : Singles missing found (.error error) (.error error)
  | none : Singles missing found (.ok []) missing
  | one (datum : Datum) : Singles missing found (.ok [datum]) (.ok (found datum))
  | many {data : List Datum} : 1 < data.length →
      Singles missing found (.ok data) (.error (.tooManyRows data.length))

theorem singles_atMostOne (result : Except QueryError (List Datum)) :
    Singles (.ok none) some result (result.bind atMostOne) := by
  match result with
  | .error error => exact .failed error
  | .ok [] => exact .none
  | .ok [datum] => exact .one datum
  | .ok (first :: second :: rest) => exact .many (Nat.one_lt_succ_succ rest.length)

theorem singles_exactlyOne (result : Except QueryError (List Datum)) :
    Singles (.error .noSuchRow) id result (result.bind exactlyOne) := by
  match result with
  | .error error => exact .failed error
  | .ok [] => exact .none
  | .ok [datum] => exact .one datum
  | .ok (first :: second :: rest) => exact .many (Nat.one_lt_succ_succ rest.length)

/-! ## Executors -/

/-- A way of getting at what a computation in another monad comes to, step by step. -/
structure Wait (m n : Type → Type) [Monad m] [Monad n] where
  run {α : Type} : m α → n α
  run_pure {α : Type} (value : α) : run (pure value) = pure value
  run_bind {α β : Type} (first : m α) (next : α → m β) :
    run (first >>= next) = run first >>= fun value => run (next value)

/-- A computation that does nothing until it is awaited. -/
abbrev Future (m : Type → Type) :=
  ReaderT Unit m

/-- Waiting for a future runs it. -/
def Future.wait (m : Type → Type) [Monad m] : Wait (Future m) m where
  run future := ReaderT.run future ()
  run_pure _ := rfl
  run_bind _ _ := rfl

namespace Executor

variable {m n : Type → Type} [Monad m] [Monad n]

/-- Every statement that the executor is handed is put on record. -/
def logged (executor : Executor m) : Executor (StateT (List Prepared) m) :=
  fun prepared calls => do
    let reply ← executor prepared
    return (reply, calls ++ [prepared])

/-- Wait for every reply. -/
def waiting (wait : Wait m n) (executor : Executor m) : Executor n :=
  fun prepared => wait.run (executor prepared)

end Executor

/-! ## Terminals -/

/-- A way of running a statement, in whatever monad its executor works. -/
abbrev Terminal (β : Type) :=
  (m : Type → Type) → [Monad m] → Executor m → m (Except QueryError β)

/-- Running a statement fails with its own error, or makes the outcome of the reply to it. -/
def Select.RunsBy {β : Type} (select : Select) (terminal : Terminal β)
    (outcome : Except QueryError (List Row) → Except QueryError β) : Prop :=
  ∀ (m : Type → Type) [Monad m] [LawfulMonad m] (executor : Executor m),
    terminal m executor =
      match select.prepare with
      | .error error => pure (.error error)
      | .ok prepared => do return outcome (← executor prepared)

namespace Select

variable {select : Select} {β γ : Type}

theorem runsBy_list (select : Select) :
    select.RunsBy (fun _ => select.list) select.rowType.decodeReply := by
  intro m _ _ executor
  change select.list executor = _
  rw [list]
  cases select.prepare <;> rfl

/-- More may be done with the outcome. -/
theorem RunsBy.andThen {terminal : Terminal β}
    {outcome : Except QueryError (List Row) → Except QueryError β}
    (runs : select.RunsBy terminal outcome) (next : β → Except QueryError γ) :
    select.RunsBy (fun m _ executor => do return (← terminal m executor).bind next)
      (fun reply => (outcome reply).bind next) := by
  intro m _ _ executor
  simp only [runs m executor]
  split
  · rw [pure_bind]
    rfl
  · rw [bind_assoc]
    simp only [pure_bind]

/-- The executor is asked once, for the prepared statement, and not at all where there is
none.  It makes no difference whether a terminal waits for it, or its caller. -/
structure AsksOnce (select : Select) (terminal : Terminal β)
    (outcome : Except QueryError (List Row) → Except QueryError β) : Prop where
  refuses {m : Type → Type} [Monad m] [LawfulMonad m] (executor : Executor m)
    (calls : List Prepared) (error : QueryError) : select.prepare = .error error →
    (terminal _ executor.logged).run calls = pure (.error error, calls)
  asks {m : Type → Type} [Monad m] [LawfulMonad m] (executor : Executor m)
    (calls : List Prepared) (prepared : Prepared) : select.prepare = .ok prepared →
    (terminal _ executor.logged).run calls = do
      let reply ← executor prepared
      return (outcome reply, calls ++ [prepared])
  waits {m n : Type → Type} [Monad m] [LawfulMonad m] [Monad n] [LawfulMonad n]
    (wait : Wait m n) (executor : Executor m) :
    wait.run (terminal m executor) = terminal n (executor.waiting wait)
  waitsLogged {m n : Type → Type} [Monad m] [LawfulMonad m] [Monad n] [LawfulMonad n]
    (wait : Wait m n) (executor : Executor m) (calls : List Prepared) :
    wait.run ((terminal _ executor.logged).run calls) =
      (terminal _ (executor.waiting wait).logged).run calls

/-- What a terminal is handed by an executor that keeps a record. -/
theorem RunsBy.run_logged {terminal : Terminal β}
    {outcome : Except QueryError (List Row) → Except QueryError β}
    (runs : select.RunsBy terminal outcome) {m : Type → Type} [Monad m] [LawfulMonad m]
    (executor : Executor m) (calls : List Prepared) :
    (terminal _ executor.logged).run calls =
      match select.prepare with
      | .error error => pure (.error error, calls)
      | .ok prepared => do return (outcome (← executor prepared), calls ++ [prepared]) := by
  rw [runs]
  cases select.prepare with
  | error error => rfl
  | ok prepared =>
      have asked : (executor.logged prepared).run calls = do
          return (← executor prepared, calls ++ [prepared]) := rfl
      simp only [StateT.run_bind, asked, bind_assoc, pure_bind, StateT.run_pure]

theorem RunsBy.asksOnce {terminal : Terminal β}
    {outcome : Except QueryError (List Row) → Except QueryError β}
    (runs : select.RunsBy terminal outcome) : select.AsksOnce terminal outcome where
  refuses executor calls error fails := by rw [runs.run_logged, fails]
  asks executor calls prepared prepares := by rw [runs.run_logged, prepares]
  waits wait executor := by
    rw [runs, runs]
    cases select.prepare with
    | error error => exact wait.run_pure _
    | ok prepared => simp only [wait.run_bind, wait.run_pure, Executor.waiting]
  waitsLogged wait executor calls := by
    rw [runs.run_logged, runs.run_logged]
    cases select.prepare with
    | error error => exact wait.run_pure _
    | ok prepared => simp only [wait.run_bind, wait.run_pure, Executor.waiting]

/-- The rows of a statement, and what they come to, with any executor. -/
structure Terminals (select : Select) : Prop where
  list : select.AsksOnce (fun _ => select.list) select.rowType.decodeReply
  optional : select.AsksOnce (fun _ => select.optional)
    fun reply => (select.rowType.decodeReply reply).bind atMostOne
  single : select.AsksOnce (fun _ => select.single)
    fun reply => (select.rowType.decodeReply reply).bind exactlyOne
  /-- All rows in order, or the error of the executor or of the first row that has one. -/
  list_outcome : ∀ reply result,
    select.rowType.Decodes reply result ↔ select.rowType.decodeReply reply = result
  optional_outcome : ∀ result, Singles (.ok none) some result (result.bind atMostOne)
  single_outcome : ∀ result, Singles (.error .noSuchRow) id result (result.bind exactlyOne)

theorem terminals (select : Select) : select.Terminals where
  list := select.runsBy_list.asksOnce
  optional := (select.runsBy_list.andThen atMostOne).asksOnce
  single := (select.runsBy_list.andThen exactlyOne).asksOnce
  list_outcome _ _ := RowType.decodes_iff
  optional_outcome := singles_atMostOne
  single_outcome := singles_exactlyOne

/-- What is awaited is what a blocking executor answers. -/
example (select : Select) (executor : Executor (Future Id)) :
    (select.single executor).run () = select.single (executor.waiting (Future.wait Id)) :=
  (select.runsBy_list.andThen exactlyOne).asksOnce.waits (Future.wait Id) executor

/-- A second row that does not decode goes ahead of there being two. -/
example :
    (Sample.everyone.optional (Executor.recording (.ok [⟨[.integer 1]⟩, ⟨[.null]⟩]))).run [] =
      (.error (.rowMapping (.mismatch .integer .null)),
        [⟨"select p.* from PERSON as p", []⟩]) := by
  rfl

end Select

end SqlSelect
