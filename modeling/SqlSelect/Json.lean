import SqlSelect.Json.Token

/-!
# JSON values

A value is read from its tokens by a stack of unfinished arrays and objects, so that
text of any depth can be read.  Members keep their order, and a key may repeat.
-/

namespace SqlSelect

/-- A JSON value.  The value of a number does not matter here. -/
inductive Json where
  | null
  | bool (value : Bool)
  | number
  | string (units : List Json.CodeUnit)
  | array (items : List Json)
  | object (members : List (List Json.CodeUnit × Json))
deriving Repr

namespace Json

/-- The text of a string. -/
def text? : Json → Option String
  | .string units => (CodeUnit.decode? units).map String.ofList
  | _ => none

/-- An unfinished array or object.  What is read of it stands in reverse. -/
inductive Frame where
  | array (items : List Json)
  | object (members : List (List CodeUnit × Json)) (key : List CodeUnit)

/-- What has to come next. -/
inductive Expecting where
  | value
  /-- The first item of an array, or its end. -/
  | firstItem
  /-- The first key of an object, or its end. -/
  | firstKey (members : List (List CodeUnit × Json))
  | key (members : List (List CodeUnit × Json))
  | colon (members : List (List CodeUnit × Json)) (key : List CodeUnit)
  /-- The end of what the innermost frame holds, or more of it. -/
  | separator
  | nothing (result : Json)

/-- How far a value has been read. -/
structure Reader where
  frames : List Frame
  expecting : Expecting

namespace Reader

/-- Put a finished value where it belongs. -/
def deliver (frames : List Frame) (value : Json) : Reader :=
  match frames with
  | [] => ⟨[], .nothing value⟩
  | .array items :: frames => ⟨.array (value :: items) :: frames, .separator⟩
  | .object members key :: frames => ⟨.object ((key, value) :: members) key :: frames, .separator⟩

/-- Read the first token of a value. -/
def readValue (frames : List Frame) : Token → Option Reader
  | .null => some (deliver frames .null)
  | .bool value => some (deliver frames (.bool value))
  | .number => some (deliver frames .number)
  | .string units => some (deliver frames (.string units))
  | .openBracket => some ⟨.array [] :: frames, .firstItem⟩
  | .openBrace => some ⟨frames, .firstKey []⟩
  | _ => none

/-- Read a token. -/
def step? (reader : Reader) (token : Token) : Option Reader :=
  match reader.expecting, token, reader.frames with
  | .value, token, frames => readValue frames token
  | .firstItem, .closeBracket, .array items :: frames => some (deliver frames (.array items.reverse))
  | .firstItem, token, frames => readValue frames token
  | .firstKey members, .closeBrace, frames => some (deliver frames (.object members.reverse))
  | .firstKey members, .string key, frames => some ⟨frames, .colon members key⟩
  | .key members, .string key, frames => some ⟨frames, .colon members key⟩
  | .colon members key, .colon, frames => some ⟨.object members key :: frames, .value⟩
  | .separator, .comma, .array items :: frames => some ⟨.array items :: frames, .value⟩
  | .separator, .comma, .object members _ :: frames => some ⟨frames, .key members⟩
  | .separator, .closeBracket, .array items :: frames => some (deliver frames (.array items.reverse))
  | .separator, .closeBrace, .object members _ :: frames =>
    some (deliver frames (.object members.reverse))
  | _, _, _ => none

end Reader

/-- The value that a text denotes, if it is JSON text. -/
def parse? (text : String) : Option Json := do
  let tokens ← tokens? .between text.toList
  let reader ← tokens.foldlM Reader.step? ⟨[], .value⟩
  match reader.expecting with
  | .nothing value => some value
  | _ => none

end Json

end SqlSelect
