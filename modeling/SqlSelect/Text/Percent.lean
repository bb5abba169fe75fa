import SqlSelect.Text.Quoted

/-!
# Percent-encoded text

Inside an address, a percent sign with two hexadecimal digits stands for one byte of
UTF-8.  A percent sign without them stands for itself.
-/

namespace SqlSelect.Percent

/-- The byte that two hexadecimal digits stand for. -/
def byte? (high low : UInt8) : Option UInt8 := do
  let high ← Hexadecimal.number? (Char.ofNat high.toNat)
  let low ← Hexadecimal.number? (Char.ofNat low.toNat)
  return UInt8.ofNat (high * 16 + low)

/-- Replace what stands for a byte by that byte. -/
def decodeBytes : List UInt8 → List UInt8
  | [] => []
  | 0x25 :: high :: low :: rest =>
    match byte? high low with
    | some byte => byte :: decodeBytes rest
    | none => 0x25 :: decodeBytes (high :: low :: rest)
  | byte :: rest => byte :: decodeBytes rest

/-- Bytes without a percent sign stand for themselves. -/
theorem decodeBytes_of_not_mem {bytes : List UInt8} (plain : 0x25 ∉ bytes) :
    decodeBytes bytes = bytes := by
  fun_induction decodeBytes bytes <;> simp_all

/-- The text that an encoded text stands for, if its bytes are one. -/
def decode? (text : String) : Option String :=
  String.fromUTF8? ⟨(decodeBytes text.toUTF8.toList).toArray⟩

end SqlSelect.Percent
