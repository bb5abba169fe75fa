/-!
# JSON tokens

Reading JSON text character by character.  The text is strict: no comments, only
the four blanks, no control characters inside strings, and numbers of the standard
form.  An escaped code unit is kept as it is, because it may be half of a pair.
-/

namespace SqlSelect.Json

/-- One element of a string. -/
inductive CodeUnit where
  | char (char : Char)
  /-- A code unit given by four hexadecimal digits. -/
  | code (code : Nat)
deriving DecidableEq, Repr

/-- The characters of a string, unless half of a surrogate pair stands alone. -/
def CodeUnit.decode? : List CodeUnit → Option (List Char)
  | [] => some []
  | .char plain :: rest => (plain :: ·) <$> decode? rest
  | .code high :: rest =>
    if 0xD800 ≤ high ∧ high < 0xDC00 then
      match rest with
      | .code low :: rest =>
        if 0xDC00 ≤ low ∧ low < 0xE000 then
          (Char.ofNat (0x10000 + (high - 0xD800) * 0x400 + (low - 0xDC00)) :: ·) <$> decode? rest
        else none
      | _ => none
    else if 0xDC00 ≤ high ∧ high < 0xE000 then none
    else (Char.ofNat high :: ·) <$> decode? rest

/-- A token of JSON text. -/
inductive Token where
  | openBrace
  | closeBrace
  | openBracket
  | closeBracket
  | colon
  | comma
  | null
  | bool (value : Bool)
  | number
  | string (units : List CodeUnit)
deriving DecidableEq, Repr

/-- How far a number has been read. -/
inductive Numeral where
  | minus
  | zero
  | digits
  | point
  | fraction
  | exponent
  | exponentSign
  | exponentDigits
deriving DecidableEq, Repr

/-- The number may end here. -/
def Numeral.isFinal : Numeral → Bool
  | .zero | .digits | .fraction | .exponentDigits => true
  | _ => false

/-- The number with one more character, if it goes on. -/
def Numeral.next? : Numeral → Char → Option Numeral
  | .minus, char => if char = '0' then some .zero else if char.isDigit then some .digits else none
  | .zero, '.' | .digits, '.' => some .point
  | .digits, char =>
    if char.isDigit then some .digits
    else if char = 'e' ∨ char = 'E' then some .exponent else none
  | .point, char => if char.isDigit then some .fraction else none
  | .fraction, char =>
    if char.isDigit then some .fraction
    else if char = 'e' ∨ char = 'E' then some .exponent else none
  | .zero, 'e' | .zero, 'E' => some .exponent
  | .zero, _ => none
  | .exponent, char =>
    if char = '+' ∨ char = '-' then some .exponentSign
    else if char.isDigit then some .exponentDigits else none
  | .exponentSign, char | .exponentDigits, char =>
    if char.isDigit then some .exponentDigits else none

/-- What is being read. -/
inductive Mode where
  | between
  /-- A keyword, its letters in reverse. -/
  | word (letters : List Char)
  | number (numeral : Numeral)
  /-- A string, its units in reverse. -/
  | string (units : List CodeUnit)
  /-- Behind a backslash. -/
  | escape (units : List CodeUnit)
  /-- Inside an escaped code unit, with the digits still to come. -/
  | unicode (units : List CodeUnit) (digits : Nat) (code : Nat)
deriving DecidableEq, Repr

/-- The token of a keyword. -/
def keyword? (letters : List Char) : Option Token :=
  if letters = ['n', 'u', 'l', 'l'] then some .null
  else if letters = ['t', 'r', 'u', 'e'] then some (.bool true)
  else if letters = ['f', 'a', 'l', 's', 'e'] then some (.bool false)
  else none

/-- The tokens that a character completes between two others, and what it starts. -/
def start? : Char → Option (List Token × Mode)
  | ' ' | '\n' | '\t' | '\r' => some ([], .between)
  | '\x7b' => some ([.openBrace], .between)
  | '\x7d' => some ([.closeBrace], .between)
  | '[' => some ([.openBracket], .between)
  | ']' => some ([.closeBracket], .between)
  | ':' => some ([.colon], .between)
  | ',' => some ([.comma], .between)
  | '"' => some ([], .string [])
  | '-' => some ([], .number .minus)
  | '0' => some ([], .number .zero)
  | char =>
    if char.isDigit then some ([], .number .digits)
    else if char.isLower then some ([], .word [char])
    else none

/-- The value of a hexadecimal digit. -/
def hexValue? (char : Char) : Option Nat :=
  if char.isDigit then some (char.toNat - '0'.toNat)
  else if 'a' ≤ char ∧ char ≤ 'f' then some (char.toNat - 'a'.toNat + 10)
  else if 'A' ≤ char ∧ char ≤ 'F' then some (char.toNat - 'A'.toNat + 10)
  else none

/-- The character that a letter behind a backslash stands for. -/
def escaped? : Char → Option Char
  | '"' => some '"'
  | '\\' => some '\\'
  | '/' => some '/'
  | 'b' => some '\x08'
  | 'f' => some '\x0c'
  | 'n' => some '\n'
  | 'r' => some '\r'
  | 't' => some '\t'
  | _ => none

/-- The tokens that a character completes, and what is being read behind it. -/
def Mode.step? : Mode → Char → Option (List Token × Mode)
  | .between, char => start? char
  | .word letters, char =>
    if char.isAlpha then some ([], .word (char :: letters))
    else do
      let token ← keyword? letters.reverse
      let (tokens, mode) ← start? char
      return (token :: tokens, mode)
  | .number numeral, char =>
    match numeral.next? char with
    | some numeral => some ([], .number numeral)
    | none =>
      if numeral.isFinal then do
        let (tokens, mode) ← start? char
        return (.number :: tokens, mode)
      else none
  | .string units, char =>
    if char = '"' then some ([.string units.reverse], .between)
    else if char = '\\' then some ([], .escape units)
    else if char.toNat < 0x20 then none
    else some ([], .string (.char char :: units))
  | .escape units, char =>
    if char = 'u' then some ([], .unicode units 3 0)
    else (escaped? char).map fun char => ([], .string (.char char :: units))
  | .unicode units digits code, char => do
    let code := code * 16 + (← hexValue? char)
    match digits with
    | 0 => return ([], .string (.code code :: units))
    | digits + 1 => return ([], .unicode units digits code)

/-- The tokens that the end of the text completes. -/
def Mode.finish? : Mode → Option (List Token)
  | .between => some []
  | .word letters => (keyword? letters.reverse).map ([·])
  | .number numeral => if numeral.isFinal then some [.number] else none
  | .string _ | .escape _ | .unicode _ _ _ => none

/-- The tokens of a text, if it is made of tokens. -/
def tokens? (mode : Mode) : List Char → Option (List Token)
  | [] => mode.finish?
  | char :: rest => do
    let (tokens, mode) ← mode.step? char
    return tokens ++ (← tokens? mode rest)

end SqlSelect.Json
