import SqlSelect.Proofs.Spelling.Literal

/-!
# Pages

The suffix that limits the rows of a query is read back word by word, as its dialect reads it.
Three ways to write one are known: `limit n offset m`, where some limits admit every row;
`offset m rows fetch first n rows only`; and the latter behind an order, without which it is
not allowed.  What was read is a page of any result there may be, and it is the page that was
asked for.
-/

namespace SqlSelect

/-- A word of the suffix. -/
inductive PageWord where
  | number (value : Int)
  | keyword (text : String)
deriving DecidableEq, Repr

/-- What the suffix says. -/
structure Page where
  /-- The rows are put in a constant order first. -/
  reorders : Bool
  /-- The rows to skip, where an offset is written. -/
  offset : Option Nat
  /-- The rows to keep behind those, if not all. -/
  count : Option Nat
deriving DecidableEq, Repr

/-! ## Reading a page -/

/-- Decimal digits, with a minus sign or without one, are a number. -/
def PageWord.read (word : List Char) : PageWord :=
  match Literal.digits? word, word with
  | some value, _ => .number value
  | none, '-' :: digits =>
    match Literal.digits? digits with
    | some value => .number (-value)
    | none => .keyword (String.ofList word)
  | none, _ => .keyword (String.ofList word)

namespace Page

/-- The words between the blanks of a text. -/
def words (text : String) : List PageWord :=
  ((text.toList.splitOn ' ').filter (· ≠ [])).map .read

/-- `limit n offset m`, either of which may be missing, but the limit only if an offset may
stand `bare`.  `admitted?` tells how many rows a limit admits. -/
def limited? (admitted? : Int → Option (Option Nat)) (bare : Bool) : List PageWord → Option Page
  | [] => some ⟨false, none, none⟩
  | [.keyword "limit", .number limit] => (admitted? limit).map (⟨false, none, ·⟩)
  | [.keyword "limit", .number limit, .keyword "offset", .number (.ofNat offset)] =>
    (admitted? limit).map (⟨false, some offset, ·⟩)
  | [.keyword "offset", .number (.ofNat offset)] =>
    if bare then some ⟨false, some offset, none⟩ else none
  | _ => none

/-- `fetch first n rows only`, or nothing. -/
def fetched? (offset : Option Nat) : List PageWord → Option Page
  | [] => some ⟨false, offset, none⟩
  | [.keyword "fetch", .keyword "first", .number (.ofNat count), .keyword "rows",
      .keyword "only"]
  | [.keyword "fetch", .keyword "next", .number (.ofNat count), .keyword "rows",
      .keyword "only"] => some ⟨false, offset, some count⟩
  | _ => none

/-- `offset m rows fetch first n rows only`, either of which may be missing. -/
def standard? : List PageWord → Option Page
  | .keyword "offset" :: .number (.ofNat offset) :: .keyword "rows" :: rest =>
    fetched? (some offset) rest
  | rest => fetched? none rest

/-- The same behind an order, where the offset has to be there.  `order by (select null)` is
an order in its own right. -/
def ordered? : List PageWord → Option Page
  | [] => some ⟨false, none, none⟩
  | .keyword "order" :: .keyword "by" :: .keyword "(select" :: .keyword "null)" :: rest => do
    let page ← standard? rest
    if page.offset.isSome then some { page with reorders := true } else none
  | rest => do
    let page ← standard? rest
    if page.offset.isSome then some page else none

end Page

namespace Dialect

/-- The number of rows that a limit admits, or all rows. -/
def admitted? (dialect : Dialect) : Int → Option (Option Nat)
  | .ofNat limit =>
    if dialect = .mysql ∧ limit = UInt64.size - 1 then some none else some (some limit)
  | .negSucc _ => if dialect = .sqlite then some none else none

/-- Read a page as a dialect does. -/
def page? (dialect : Dialect) (words : List PageWord) : Option Page :=
  match dialect with
  | .postgres => Page.limited? dialect.admitted? true words
  | .mysql | .sqlite => Page.limited? dialect.admitted? false words
  | .sqlserver => Page.ordered? words
  | .ansi | .oracle | .db2 | .derby => Page.standard? words

/-- Read the text of a page. -/
def readPage? (dialect : Dialect) (text : String) : Option Page :=
  dialect.page? (Page.words text)

end Dialect

/-! ## The rows of a page -/

namespace Page

variable {page : Page} {fetch offset : Option Nat} {α : Type}

/-- Skip the offset, then keep the count. -/
def rows (page : Page) (result : List α) : List α :=
  match page.count with
  | some count => (result.drop (page.offset.getD 0)).take count
  | none => result.drop (page.offset.getD 0)

/-- A page has the rows that were asked for, in every result that is not longer than numbers
of 64 bits can count: its rows are those of the result from the offset on, as far as the
count. -/
def Serves (page : Page) (fetch offset : Option Nat) : Prop :=
  ∀ {α : Type} (result : List α), result.length < UInt64.size → ∀ position,
    (page.rows result)[position]? =
      if fetch.all (position < ·) then result[offset.getD 0 + position]? else none

theorem getElem?_rows (page : Page) (result : List α) (position : Nat) :
    (page.rows result)[position]? =
      if page.count.all (position < ·) then result[page.offset.getD 0 + position]? else none := by
  rw [rows]
  cases page.count <;> simp [List.getElem?_take, List.getElem?_drop]

/-- Counts need to agree only as far as a result may reach. -/
theorem serves_of_counts (offsets : page.offset.getD 0 = offset.getD 0)
    (counts : ∀ position < UInt64.size - 1,
      page.count.all (position < ·) = fetch.all (position < ·)) :
    page.Serves fetch offset := by
  intro α result bound position
  rw [getElem?_rows, offsets]
  by_cases within : position < UInt64.size - 1
  · rw [counts position within]
  · rw [List.getElem?_eq_none (by omega), ite_self, ite_self]

theorem serves_of_eq (offsets : page.offset.getD 0 = offset.getD 0) (counts : page.count = fetch) :
    page.Serves fetch offset :=
  serves_of_counts offsets fun _ _ => by rw [counts]

end Page

/-! ## Words back from their text -/

/-- The characters of a word. -/
def PageWord.chars : PageWord → List Char
  | .number value => (toString value).toList
  | .keyword text => text.toList

/-- A word is told from its neighbours, and is read as itself. -/
structure PageWord.Plain (word : PageWord) : Prop where
  filled : word.chars ≠ []
  unbroken : ' ' ∉ word.chars
  reads : PageWord.read word.chars = word

instance (word : PageWord) : Decidable word.Plain :=
  decidable_of_iff
    (word.chars ≠ [] ∧ ' ' ∉ word.chars ∧ PageWord.read word.chars = word)
    ⟨fun ⟨filled, unbroken, reads⟩ => ⟨filled, unbroken, reads⟩,
      fun plain => ⟨plain.filled, plain.unbroken, plain.reads⟩⟩

theorem PageWord.plain_number (value : Nat) : Plain (.number value) := by
  constructor
  case filled =>
    change value.repr.toList ≠ []
    rw [Nat.toList_repr]
    exact Nat.toDigits_ne_nil
  case unbroken =>
    intro member
    cases List.all_eq_true.mp (Literal.letters_repr value) _ member
  case reads =>
    change PageWord.read value.repr.toList = _
    unfold PageWord.read
    rw [Literal.digits?_repr]

namespace Page

/-- A text consists of words, each of them behind a blank. -/
structure Spells (text : String) (words : List PageWord) : Prop where
  chars : text.toList = words.flatMap fun word => ' ' :: word.chars
  plain : ∀ word ∈ words, word.Plain

namespace Spells

variable {text other : String} {words others : List PageWord}

theorem nil : Spells "" [] := ⟨rfl, fun _ member => absurd member List.not_mem_nil⟩

theorem append (left : Spells text words) (right : Spells other others) :
    Spells (text ++ other) (words ++ others) := by
  constructor
  case chars => rw [String.toList_append, left.chars, right.chars, List.flatMap_append]
  case plain =>
    intro word member
    rcases List.mem_append.mp member with old | new
    · exact left.plain word old
    · exact right.plain word new

/-- Keywords, and a number behind the blank that they end with. -/
theorem counted {opening : String}
    (chars : opening.toList = (words.flatMap fun word => ' ' :: word.chars) ++ [' '])
    (plain : ∀ word ∈ words, word.Plain) (value : Nat) :
    Spells (opening ++ value.repr) (words ++ [.number value]) := by
  constructor
  case chars =>
    rw [String.toList_append, chars, List.flatMap_append, List.append_assoc,
      List.flatMap_singleton]
    rfl
  case plain =>
    intro word member
    rcases List.mem_append.mp member with old | new
    · exact plain word old
    · rw [List.mem_singleton.mp new]
      exact PageWord.plain_number value

theorem limit (count : Nat) :
    Spells (" limit " ++ count.repr) ([.keyword "limit"] ++ [.number count]) :=
  counted rfl (by decide) count

theorem offset (count : Nat) :
    Spells (" offset " ++ count.repr) ([.keyword "offset"] ++ [.number count]) :=
  counted rfl (by decide) count

theorem rows : Spells " rows" [.keyword "rows"] := ⟨rfl, by decide⟩

theorem fetchFirst (count : Nat) :
    Spells (" fetch first " ++ count.repr ++ " rows only")
      ([.keyword "fetch", .keyword "first"] ++ [.number count] ++
        [.keyword "rows", .keyword "only"]) :=
  (counted rfl (by decide) count).append ⟨rfl, by decide⟩

theorem fetchNext (count : Nat) :
    Spells (" fetch next " ++ count.repr ++ " rows only")
      ([.keyword "fetch", .keyword "next"] ++ [.number count] ++
        [.keyword "rows", .keyword "only"]) :=
  (counted rfl (by decide) count).append ⟨rfl, by decide⟩

theorem constantOrder :
    Spells " order by (select null)"
      [.keyword "order", .keyword "by", .keyword "(select", .keyword "null)"] :=
  ⟨rfl, by decide⟩

/-- What stands ahead of the first blank is cut off, then every word is. -/
theorem splitOn_blanks (words : List PageWord) (plain : ∀ word ∈ words, word.Plain)
    (ahead : List Char) (unbroken : ' ' ∉ ahead) :
    (ahead ++ words.flatMap fun word => ' ' :: word.chars).splitOn ' ' =
      ahead :: words.map PageWord.chars := by
  induction words generalizing ahead with
  | nil => simpa using List.splitOn_eq_singleton unbroken
  | cons word rest ih =>
      have behind := ih (fun other member => plain other (.tail _ member)) word.chars
        (plain word List.mem_cons_self).unbroken
      rw [List.flatMap_cons, List.cons_append, List.splitOn_append_cons_self,
        List.splitOn_eq_singleton unbroken, behind]
      rfl

/-- Words that are spelled are read back. -/
theorem words_eq (spells : Spells text words) : Page.words text = words := by
  have cut := splitOn_blanks words spells.plain [] List.not_mem_nil
  have filled : (words.map PageWord.chars).filter (· ≠ []) = words.map PageWord.chars := by
    rw [List.filter_eq_self]
    intro chars member
    obtain ⟨word, known, rfl⟩ := List.mem_map.mp member
    exact decide_eq_true (spells.plain word known).filled
  have reads : words.map (PageWord.read ∘ PageWord.chars) = words :=
    (List.map_congr_left fun word member => (spells.plain word member).reads).trans
      words.map_id'
  rw [List.nil_append, ← spells.chars] at cut
  rw [Page.words, cut, List.filter_cons_of_neg (by simp), filled, List.map_map, reads]

end Spells

end Page

namespace Dialect

variable {dialect : Dialect} {fetch offset : Option Nat} {ordered : Bool}

theorem readPage?_of_spells {text : String} {words : List PageWord}
    (spells : Page.Spells text words) : dialect.readPage? text = dialect.page? words := by
  rw [readPage?, spells.words_eq]

theorem readPage?_postgres :
    readPage? .postgres (pagination .postgres fetch offset ordered) =
      some ⟨false, offset, fetch⟩ := by
  cases fetch with
  | none =>
      cases offset with
      | none => exact readPage?_of_spells .nil
      | some skipped => exact readPage?_of_spells (Page.Spells.nil.append (.offset skipped))
  | some count =>
      have limited := Page.Spells.limit count
      cases offset with
      | none => exact readPage?_of_spells (limited.append .nil)
      | some skipped => exact readPage?_of_spells (limited.append (.offset skipped))

/-- Where an offset stands behind a limit alone, the one that admits all rows is written if
none was asked for. -/
theorem readPage?_limited {unlimited : String} {limit : Int}
    (reads : dialect.page? = Page.limited? dialect.admitted? false)
    (spells : Page.Spells (" limit " ++ unlimited) [.keyword "limit", .number limit])
    (all : dialect.admitted? limit = some none) :
    dialect.readPage? (limitedPagination unlimited fetch offset) =
      match fetch with
      | none => some ⟨false, offset, none⟩
      | some count => (dialect.admitted? count).map (⟨false, offset, ·⟩) := by
  cases fetch with
  | none =>
      cases offset with
      | none => rw [limitedPagination, readPage?_of_spells .nil, reads]; rfl
      | some skipped =>
          rw [limitedPagination, String.append_assoc,
            readPage?_of_spells (spells.append (.offset skipped)), reads]
          change (dialect.admitted? limit).map _ = _
          rw [all]
          rfl
  | some count =>
      have limited := Page.Spells.limit count
      cases offset with
      | none => rw [limitedPagination, readPage?_of_spells limited, reads]; rfl
      | some skipped =>
          rw [limitedPagination, String.append_assoc,
            readPage?_of_spells (limited.append (.offset skipped)), reads]
          rfl

theorem readPage?_standard (reads : dialect.page? = Page.standard?) :
    dialect.readPage? (standardPagination fetch offset) = some ⟨false, offset, fetch⟩ := by
  cases offset with
  | none =>
      cases fetch with
      | none =>
          rw [standardPagination, readPage?_of_spells (Page.Spells.nil.append .nil), reads]
          rfl
      | some count =>
          rw [standardPagination,
            readPage?_of_spells (Page.Spells.nil.append (.fetchFirst count)), reads]
          rfl
  | some skipped =>
      have offsets := (Page.Spells.offset skipped).append .rows
      cases fetch with
      | none =>
          rw [standardPagination, readPage?_of_spells (offsets.append .nil), reads]
          rfl
      | some count =>
          rw [standardPagination, readPage?_of_spells (offsets.append (.fetchFirst count)), reads]
          rfl

theorem pagination_sqlserver (asked : (fetch.isSome || offset.isSome) = true) :
    pagination .sqlserver fetch offset ordered =
      (if ordered then "" else " order by (select null)") ++
        (" offset " ++ (offset.getD 0).repr ++ " rows") ++
        fetch.elim "" fun count => " fetch next " ++ count.repr ++ " rows only" := by
  cases fetch with
  | none =>
      cases offset with
      | none => cases asked
      | some skipped => simp [pagination, String.append_assoc]
  | some count => simp [pagination, String.append_assoc]

/-- An order is written unless there is one, and an offset is always written. -/
theorem readPage?_sqlserver (asked : (fetch.isSome || offset.isSome) = true) :
    readPage? .sqlserver (pagination .sqlserver fetch offset ordered) =
      some ⟨!ordered, some (offset.getD 0), fetch⟩ := by
  have offsets := (Page.Spells.offset (offset.getD 0)).append .rows
  rw [pagination_sqlserver asked]
  cases ordered with
  | true =>
      have behind := Page.Spells.nil.append offsets
      cases fetch with
      | none => exact readPage?_of_spells (behind.append .nil)
      | some count => exact readPage?_of_spells (behind.append (.fetchNext count))
  | false =>
      have behind := Page.Spells.constantOrder.append offsets
      cases fetch with
      | none => exact readPage?_of_spells (behind.append .nil)
      | some count => exact readPage?_of_spells (behind.append (.fetchNext count))

/-- What the suffix for a row window says to its dialect. -/
structure Paginates (dialect : Dialect) (fetch offset : Option Nat) (ordered : Bool)
    (page : Page) : Prop where
  reads : dialect.readPage? (dialect.pagination fetch offset ordered) = some page
  serves : page.Serves fetch offset
  /-- An order is added only where the dialect needs one and there is none. -/
  reorders : page.reorders =
    (dialect == .sqlserver && !ordered && (fetch.isSome || offset.isSome))
  /-- Where an order is needed, an offset is as well. -/
  skips : dialect = .sqlserver → (fetch.isSome || offset.isSome) = true → page.offset.isSome

theorem pagination_none (dialect : Dialect) (ordered : Bool) :
    dialect.pagination none none ordered = "" := by
  cases dialect <;> rfl

/-- A limit admits what it says, as far as a result may reach. -/
theorem admitted?_eq (dialect : Dialect) (limit : Nat) :
    ∃ count, dialect.admitted? limit = some count ∧
      ∀ position < UInt64.size - 1, count.all (position < ·) = decide (position < limit) := by
  by_cases most : dialect = .mysql ∧ limit = UInt64.size - 1
  · refine ⟨none, if_pos most, fun position bound => ?_⟩
    rw [most.2, decide_eq_true bound]
    rfl
  · exact ⟨some limit, if_neg most, fun _ _ => rfl⟩

theorem paginates_of_eq (unneeded : dialect ≠ .sqlserver)
    (reads : dialect.readPage? (dialect.pagination fetch offset ordered) =
      some ⟨false, offset, fetch⟩) :
    dialect.Paginates fetch offset ordered ⟨false, offset, fetch⟩ := by
  constructor
  case reads => exact reads
  case serves => exact Page.serves_of_eq rfl rfl
  case reorders => simp [unneeded]
  case skips => exact fun needed => absurd needed unneeded

theorem exists_paginates_limited {unlimited : String} {limit : Int}
    (unneeded : dialect ≠ .sqlserver)
    (reads : dialect.page? = Page.limited? dialect.admitted? false)
    (writes : dialect.pagination fetch offset ordered = limitedPagination unlimited fetch offset)
    (spells : Page.Spells (" limit " ++ unlimited) [.keyword "limit", .number limit])
    (all : dialect.admitted? limit = some none) :
    ∃ page, dialect.Paginates fetch offset ordered page := by
  have read := (congrArg dialect.readPage? writes).trans (readPage?_limited reads spells all)
  cases fetch with
  | none => exact ⟨_, paginates_of_eq unneeded read⟩
  | some count =>
      obtain ⟨kept, admitted, counts⟩ := dialect.admitted?_eq count
      refine ⟨⟨false, offset, kept⟩, ?_, ?_, ?_, ?_⟩
      · exact read.trans (congrArg (Option.map _) admitted)
      · exact Page.serves_of_counts rfl counts
      · simp [unneeded]
      · exact fun needed => absurd needed unneeded

/-- In every dialect the suffix says the page that was asked for. -/
theorem exists_paginates (dialect : Dialect) (fetch offset : Option Nat) (ordered : Bool) :
    ∃ page, dialect.Paginates fetch offset ordered page := by
  cases dialect with
  | postgres => exact ⟨_, paginates_of_eq (by decide) readPage?_postgres⟩
  | mysql =>
      have spells : Page.Spells (" limit " ++ "18446744073709551615")
          [.keyword "limit", .number (UInt64.size - 1)] := ⟨rfl, by decide⟩
      exact exists_paginates_limited (by decide) rfl rfl spells rfl
  | sqlite =>
      have spells : Page.Spells (" limit " ++ "-1") [.keyword "limit", .number (-1)] :=
        ⟨rfl, by decide⟩
      exact exists_paginates_limited (by decide) rfl rfl spells rfl
  | ansi | oracle | db2 | derby =>
      exact ⟨_, paginates_of_eq (by decide) (readPage?_standard rfl)⟩
  | sqlserver =>
      cases asked : fetch.isSome || offset.isSome with
      | true =>
          refine ⟨_, readPage?_sqlserver asked, Page.serves_of_eq rfl rfl, ?_, fun _ _ => rfl⟩
          simp [asked]
      | false =>
          obtain ⟨rfl, rfl⟩ : fetch = none ∧ offset = none := by simpa using asked
          refine ⟨⟨false, none, none⟩, rfl, Page.serves_of_eq rfl rfl, ?_, nofun⟩
          rw [asked, Bool.and_false]

end Dialect

end SqlSelect
