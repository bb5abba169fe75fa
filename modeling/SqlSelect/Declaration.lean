/-!
# Record declarations

A declaration is the description of a record type from which a table is made: its
fields with their types, and the options attached to the record and its fields.
-/

namespace SqlSelect

/-- The forms of a declared type.  Only records become tables. -/
inductive Form where
  | record
  /-- A product whose members have no names. -/
  | tuple
  | unit
  | enumeration
  | union
deriving DecidableEq, Repr

/-- The value given to an option. -/
inductive OptionValue where
  | text (value : String)
  | number (value : Int)
deriving DecidableEq, Repr

/-- An option: a key, and a value unless it is a flag. -/
structure Setting where
  key : String
  value : Option OptionValue
deriving DecidableEq, Repr

/-- Options attached to a record or a field.  An attribute without parentheses has
no list of options at all. -/
structure Attribute where
  path : String
  settings : Option (List Setting)
deriving DecidableEq, Repr

/-- The type of a field as it is written. -/
inductive FieldType where
  /-- A name with its qualifiers; the arguments belong to its last part. -/
  | path (segments : List String) (arguments : Option (List FieldType))
  | lifetime (name : String)
  | reference (inner : FieldType)
  | tuple (members : List FieldType)
  | slice (inner : FieldType)
deriving Repr

/-- A field of a record. -/
structure Field where
  name : String
  type : FieldType
  attributes : List Attribute
deriving Repr

/-- The declaration of a type. -/
structure Declaration where
  form : Form
  name : String
  attributes : List Attribute
  /-- The parameters of a generic type. -/
  parameters : List String
  fields : List Field
deriving Repr

/-- The field may be absent: its type is an optional type with an argument. -/
def FieldType.isOptional : FieldType → Bool
  | .path segments (some (argument :: _)) =>
    segments.getLast? == some "Option" &&
      match argument with
      | .lifetime _ => false
      | _ => true
  | _ => false

end SqlSelect
