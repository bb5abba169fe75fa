import SqlSelect.Database
import SqlSelect.Error
import SqlSelect.Json

/-!
# Database configurations

A configuration names a dialect and may name a default schema.  It is an object with
the two as members, where other members are ignored, or an array of the two.
-/

namespace SqlSelect

/-- A configured database. -/
structure Config where
  dialect : Dialect
  defaultSchema : Option String
deriving DecidableEq, Repr

namespace Config

/-- The dialect of a name. -/
def dialectOfName (name : String) : Except ConfigFault Dialect :=
  match Dialect.ofName? name with
  | some dialect => .ok dialect
  | none => .error (.unknownDialect name)

/-- The dialect of a value: its name, or an object whose only key is the name. -/
def dialectOf : Json → Except ConfigFault Dialect
  | .string units =>
    match Json.text? (.string units) with
    | some name => dialectOfName name
    | none => .error .malformed
  | .object [(units, .null)] =>
    match Json.text? (.string units) with
    | some name => dialectOfName name
    | none => .error .malformed
  | _ => .error (.unexpected "dialect")

/-- The schema of a value. -/
def schemaOf : Json → Except ConfigFault (Option String)
  | .null => .ok none
  | .string units =>
    match Json.text? (.string units) with
    | some schema => .ok (some schema)
    | none => .error .malformed
  | _ => .error (.unexpected "default_schema")

/-- The members read so far. -/
structure Members where
  dialect : Option Dialect := none
  defaultSchema : Option (Option String) := none

/-- Read one member of a configuration object. -/
def Members.add (members : Members) (member : List Json.CodeUnit × Json) :
    Except ConfigFault Members :=
  match Json.text? (.string member.1) with
  | none => .error .malformed
  | some "dialect" =>
    if members.dialect.isSome then .error (.duplicate "dialect")
    else do return { members with dialect := some (← dialectOf member.2) }
  | some "default_schema" =>
    if members.defaultSchema.isSome then .error (.duplicate "default_schema")
    else do return { members with defaultSchema := some (← schemaOf member.2) }
  | some _ => .ok members

/-- The configuration that a JSON value describes. -/
def ofJson : Json → Except ConfigFault Config
  | .object members => do
    let members ← members.foldlM Members.add {}
    match members.dialect with
    | some dialect => return ⟨dialect, members.defaultSchema.getD none⟩
    | none => throw (.missing "dialect")
  | .array [dialect] => do return ⟨← dialectOf dialect, none⟩
  | .array [dialect, schema] => do return ⟨← dialectOf dialect, ← schemaOf schema⟩
  | .array [] => .error (.missing "dialect")
  | _ => .error (.unexpected "configuration")

/-- The configuration that a text describes. -/
def parse (text : String) : Except QueryError Config :=
  match Json.parse? text with
  | some value => (ofJson value).mapError .configuration
  | none => .error (.configuration .malformed)

/-- The configured database. -/
def database (config : Config) : Database :=
  ⟨config.dialect, config.defaultSchema⟩

end Config

end SqlSelect
