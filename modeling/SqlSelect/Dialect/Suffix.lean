import SqlSelect.Dialect

/-!
# Statement suffixes

Pagination, isolation and locking are written behind everything else, each in the
way of its dialect.  A suffix starts with a space and is empty when nothing was
asked for.
-/

namespace SqlSelect

/-- Isolation levels a statement may ask for. -/
inductive IsolationLevel where
  | uncommittedRead
  | readCommitted
  | repeatableRead
  | serializable
deriving DecidableEq, Repr

/-- Locks a statement may ask to keep on the rows it reads. -/
inductive LockLevel where
  | share
  | update
  | exclusive
deriving DecidableEq, Repr

/-- The name of a lock. -/
def LockLevel.name : LockLevel → String
  | .share => "share"
  | .update => "update"
  | .exclusive => "exclusive"

namespace Dialect

/-- The standard row window: an offset, then a row count. -/
def standardPagination (fetch offset : Option Nat) : String :=
  (match offset with
    | some offset => " offset " ++ offset.repr ++ " rows"
    | none => "") ++
  (match fetch with
    | some fetch => " fetch first " ++ fetch.repr ++ " rows only"
    | none => "")

/-- A row window where an offset is only allowed behind a limit.  `unlimited` is
the limit that admits every row. -/
def limitedPagination (unlimited : String) (fetch offset : Option Nat) : String :=
  match fetch, offset with
  | some fetch, some offset => " limit " ++ fetch.repr ++ " offset " ++ offset.repr
  | some fetch, none => " limit " ++ fetch.repr
  | none, some offset => " limit " ++ unlimited ++ " offset " ++ offset.repr
  | none, none => ""

/-- The suffix that skips `offset` rows and keeps `fetch`.  `ordered` tells
whether an ORDER BY stands ahead of it; where the window needs one and there is
none, a constant order is written. -/
def pagination (dialect : Dialect) (fetch offset : Option Nat) (ordered : Bool) : String :=
  match dialect with
  | .postgres =>
    (match fetch with
      | some fetch => " limit " ++ fetch.repr
      | none => "") ++
    (match offset with
      | some offset => " offset " ++ offset.repr
      | none => "")
  | .mysql => limitedPagination "18446744073709551615" fetch offset
  | .sqlite => limitedPagination "-1" fetch offset
  | .sqlserver =>
    if fetch.isNone && offset.isNone then ""
    else
      (if ordered then "" else " order by (select null)") ++
      " offset " ++ (offset.getD 0).repr ++ " rows" ++
      (match fetch with
        | some fetch => " fetch next " ++ fetch.repr ++ " rows only"
        | none => "")
  | .ansi | .oracle | .db2 | .derby => standardPagination fetch offset

/-- The suffix that asks for an isolation level, where a statement can. -/
def isolation? (dialect : Dialect) (level : IsolationLevel) : Option String :=
  match dialect with
  | .db2 | .derby =>
    match level with
    | .uncommittedRead => some " with ur"
    | .readCommitted => some " with cs"
    | .repeatableRead => some " with rs"
    | .serializable => some " with rr"
  | _ => none

/-- The suffix that keeps a lock on the rows read, where a statement can. -/
def locks? (dialect : Dialect) (level : Option IsolationLevel) (lock : LockLevel) :
    Option String :=
  match dialect with
  | .postgres | .mysql =>
    match lock with
    | .share => some " for share"
    | .update | .exclusive => some " for update"
  | .oracle =>
    match lock with
    | .share => none
    | .update | .exclusive => some " for update"
  | .db2 | .derby =>
    let kept := if level = some .serializable then "rr" else "rs"
    some (" for read only with " ++ kept ++ " use and keep " ++ lock.name ++ " locks")
  | .ansi | .sqlite | .sqlserver => none

end Dialect

end SqlSelect
