/-!
# Quoted text and hexadecimal bytes

The two delimited literals of SQL.  A text literal stands between single quotes
and writes a quote inside it twice; a binary literal holds two upper-case
hexadecimal digits per byte.
-/

namespace SqlSelect

namespace Quoted

/-- Write every quote twice. -/
def escape : List Char → List Char
  | [] => []
  | '\'' :: rest => '\'' :: '\'' :: escape rest
  | char :: rest => char :: escape rest

/-- The text literal that denotes `text`. -/
def literal (text : String) : String :=
  String.ofList ('\'' :: escape text.toList ++ ['\''])

end Quoted

namespace Hexadecimal

/-- The upper-case digit of a number below sixteen. -/
def digit (number : Nat) : Char :=
  if number < 10 then Char.ofNat ('0'.toNat + number) else Char.ofNat ('A'.toNat + (number - 10))

/-- The two digits of each byte, in order. -/
def ofBytes : List UInt8 → List Char
  | [] => []
  | byte :: rest => digit (byte.toNat / 16) :: digit (byte.toNat % 16) :: ofBytes rest

/-- The number of a hexadecimal digit of either case. -/
def number? (char : Char) : Option Nat :=
  if '0' ≤ char ∧ char ≤ '9' then some (char.toNat - '0'.toNat)
  else if 'A' ≤ char ∧ char ≤ 'F' then some (char.toNat - 'A'.toNat + 10)
  else if 'a' ≤ char ∧ char ≤ 'f' then some (char.toNat - 'a'.toNat + 10)
  else none

/-- The bytes that pairs of digits stand for. -/
def toBytes? : List Char → Option (List UInt8)
  | [] => some []
  | [_] => none
  | high :: low :: rest => do
    return UInt8.ofNat ((← number? high) * 16 + (← number? low)) :: (← toBytes? rest)

theorem number?_digit : ∀ number < 16, number? (digit number) = some number := by
  decide

@[simp] theorem toBytes?_ofBytes (bytes : List UInt8) : toBytes? (ofBytes bytes) = some bytes := by
  induction bytes with
  | nil => rfl
  | cons byte rest ih =>
    have bound : byte.toNat < 256 := byte.toNat_lt
    have high := number?_digit (byte.toNat / 16) (by omega)
    have low := number?_digit (byte.toNat % 16) (by omega)
    have whole : UInt8.ofNat (byte.toNat / 16 * 16 + byte.toNat % 16) = byte := by
      rw [Nat.div_add_mod' byte.toNat 16, UInt8.ofNat_toNat]
    simp only [ofBytes, toBytes?, ih, high, low, Option.bind_eq_bind, Option.bind_some, whole]
    rfl

/-- The binary literal that denotes `bytes`. -/
def literal (bytes : List UInt8) : String :=
  String.ofList ('X' :: '\'' :: ofBytes bytes ++ ['\''])

end Hexadecimal

end SqlSelect
