import SqlSelect.Sqlite.Store
import SqlSelect.Sqlite.Address

/-!
# Sessions with an in-memory SQLite database

A session is a list of requests, each answered from the rows that the ones before it
left.  A request that fails changes nothing, and an open transaction goes on.
-/

namespace SqlSelect.Sqlite

/-- A request to the database. -/
inductive Request where
  | insert (cells : List Value)
  | clear
  /-- A statement on a table that does not exist. -/
  | faulty
  /-- Hand values over and read them back. -/
  | echo (values : List Value)
  /-- Every row, cell by cell. -/
  | cells
  | list (select : Select) (plan : Plan)
  | optional (select : Select) (plan : Plan)
  | single (select : Select) (plan : Plan)
  /-- Open a second database, at an address. -/
  | connect (address : String)
  | begin
  | commit
  /-- Undo the open transaction, asked for or because its handle is gone. -/
  | rollback

/-- The answer to a request. -/
inductive Reply where
  /-- The number of rows changed. -/
  | changed (count : Nat)
  | rows (rows : List Row)
  | list (rows : List Datum)
  | optional (row : Option Datum)
  | single (row : Datum)
  /-- The handle of a transaction in readable form. -/
  | handle (text : String)
  | done

/-- A row may have this many columns. -/
def mostColumns : Nat := 2000

/-- Hand values over in the SELECT list and read them back.  The list cannot be empty. -/
def echo (values : List Value) : Except QueryError Reply :=
  if values.isEmpty then .error (.executor "syntax error")
  else if values.length > mostColumns then .error (.executor "too many columns in result set")
  else (fetch (.ok [values.map fun value => (Argument.ofValue value).kept]) .ok).map .rows

/-- Open a second database.  There are no files to open. -/
def connect (address : String) : Except QueryError Reply :=
  match Address.parse? address with
  | none => .error (.executor "unknown parameter")
  | some address =>
    if address.needsNoFile then .ok .done else .error (.executor "unable to open database file")

/-- Answer a request. -/
def respond (store : Store) : Request → Except QueryError Reply × Store
  | .insert cells =>
    let (changed, next) := (Store.driver .every).execute ⟨"insert", cells⟩ store
    (changed.map .changed, next)
  | .clear => (.ok (.changed store.rows.length), store.clear)
  | .faulty => (.error (.executor "no such table"), store)
  | .echo values => (echo values, store)
  | .cells => ((fetch (.ok store.rows) .ok).map .rows, store)
  | .list select plan => ((select.list (store.executor plan)).map .list, store)
  | .optional select plan => ((select.optional (store.executor plan)).map .optional, store)
  | .single select plan => ((select.single (store.executor plan)).map .single, store)
  | .connect address => (connect address, store)
  | .begin => (.ok (.handle "SqliteTransaction \x7b .. \x7d"), store.begin)
  | .commit => (.ok .done, store.commit)
  | .rollback => (.ok .done, store.rollback)

/-- Answer requests in order. -/
def respondAll (store : Store) : List Request → List (Except QueryError Reply)
  | [] => []
  | request :: rest =>
    let (reply, store) := respond store request
    reply :: respondAll store rest

end SqlSelect.Sqlite
