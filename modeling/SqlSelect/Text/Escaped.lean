import SqlSelect.Text.Invisible

/-!
# Escaped text

Text in double quotes for inspection: quotes, backslashes and the common controls
have a short escape, and every other invisible character is written by its code
point.
-/

namespace SqlSelect.Escaped

/-- The code point of a character in braces, in lower-case hexadecimal. -/
def codePoint (char : Char) : List Char :=
  "\\u\x7b".toList ++ Nat.toDigits 16 char.toNat ++ "\x7d".toList

/-- One character as it stands inside the quotes. -/
def escape : Char → List Char
  | '\x00' => ['\\', '0']
  | '\t' => ['\\', 't']
  | '\n' => ['\\', 'n']
  | '\r' => ['\\', 'r']
  | '"' => ['\\', '"']
  | '\\' => ['\\', '\\']
  | char => if isInvisible char then codePoint char else [char]

/-- The text in double quotes. -/
def quote (text : String) : String :=
  String.ofList ('"' :: text.toList.flatMap escape ++ ['"'])

end SqlSelect.Escaped
