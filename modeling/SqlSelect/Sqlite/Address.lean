import SqlSelect.Text.Percent

/-!
# Addresses of SQLite databases

An address is the name of a database behind an optional scheme.  Parameters, as in
`sqlite::memory:?cache=shared`, say how to open it.  An address is no use with a
parameter that is not known, or with a value that its parameter does not take.
-/

namespace SqlSelect.Sqlite

/-- The name of a database, and whether it is kept in memory whatever its name is. -/
structure Address where
  name : String
  inMemory : Bool := false
deriving DecidableEq, Repr

namespace Address

/-- Remove every copy of a word that a text starts with. -/
def dropLeading (word text : List Char) : List Char :=
  if word ≠ [] ∧ word.isPrefixOf text then dropLeading word (text.drop word.length) else text
termination_by text.length
decreasing_by
  rename_i leads
  have bound := (List.isPrefixOf_iff_prefix.mp leads.2).length_le
  have positive := List.length_pos_iff.mpr leads.1
  simp only [List.length_drop]
  omega

/-- What stands behind the scheme. -/
def withoutScheme (text : String) : String :=
  String.ofList
    (dropLeading "sqlite:".toList (dropLeading "sqlite://".toList text.toList))

/-- The parts ahead of the first separator and behind it, if there is one. -/
def splitFirst (separator text : String) : String × Option String :=
  match text.splitOn separator with
  | first :: second :: rest => (first, some (separator.intercalate (second :: rest)))
  | _ => (text, none)

/-- A key and its value.  A plus sign stands for a blank. -/
def parameter? (text : String) : Option (String × String) := do
  let (key, value) := splitFirst "=" (" ".intercalate (text.splitOn "+"))
  return (← Percent.decode? key, ← Percent.decode? (value.getD ""))

/-- Heed a parameter, if it is known and takes its value.  Two of them keep the
database in memory; the others make no difference to one that needs no file. -/
def heed? (address : Address) : String × String → Option Address
  | ("mode", "memory") | ("vfs", "memdb") => some { address with inMemory := true }
  | (key, value) =>
    let values := match key with
      | "mode" => ["ro", "rw", "rwc"]
      | "cache" => ["private", "shared"]
      | "immutable" => ["true", "false", "1", "0"]
      | "vfs" => ["unix", "unix-dotfile", "unix-excl", "unix-none"]
      | _ => []
    if values.contains value then some address else none

/-- Read an address. -/
def parse? (text : String) : Option Address := do
  let (name, parameters) := splitFirst "?" (withoutScheme text)
  let parameters := ((parameters.getD "").splitOn "&").filter (· ≠ "")
  (← parameters.mapM parameter?).foldlM heed? ⟨← Percent.decode? name, false⟩

/-- The database can be opened without a file. -/
def needsNoFile (address : Address) : Bool :=
  address.inMemory || ["", ":memory:", "file::memory:"].contains address.name

end Address

end SqlSelect.Sqlite
