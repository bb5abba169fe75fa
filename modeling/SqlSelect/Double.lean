/-!
# Binary64 numbers

A `Double` is the bit pattern of an IEEE 754 binary64 number.  Every operation
here is integer arithmetic on that pattern, so numbers can be compared, read
apart and written down inside proofs.
-/

namespace SqlSelect

/-- A binary64 number, given by its 64 bits. -/
structure Double where
  bits : UInt64
deriving DecidableEq, Repr

namespace Double

/-- The sign bit is set.  This holds of negative zero and of half of the NaNs. -/
def isNegative (number : Double) : Bool :=
  decide (Nat.pow 2 63 ≤ number.bits.toNat)

/-- The eleven bits of the biased exponent. -/
def exponentField (number : Double) : Nat :=
  number.bits.toNat / Nat.pow 2 52 % Nat.pow 2 11

/-- The fifty-two bits after the leading one. -/
def fraction (number : Double) : Nat :=
  number.bits.toNat % Nat.pow 2 52

/-- The number is neither an infinity nor a NaN. -/
def isFinite (number : Double) : Bool :=
  number.exponentField != 2047

/-- The number is not a number. -/
def isNan (number : Double) : Bool :=
  !number.isFinite && number.fraction != 0

/-- The number is zero, of either sign. -/
def isZero (number : Double) : Bool :=
  number.exponentField == 0 && number.fraction == 0

/-- The integer `significand` for which a finite magnitude is
`significand * 2 ^ exponent`. -/
def significand (number : Double) : Nat :=
  if number.exponentField = 0 then number.fraction else Nat.pow 2 52 + number.fraction

/-- The power of two that goes with `significand`. -/
def exponent (number : Double) : Int :=
  if number.exponentField = 0 then -1074 else (number.exponentField : Int) - 1075

/-- The quiet NaN with a clear sign bit. -/
def nan : Double := ⟨0x7ff8000000000000⟩

/-- Numerical equality: a NaN differs from everything, and the zeros are equal. -/
def equals (left right : Double) : Bool :=
  !left.isNan && !right.isNan && (left.bits == right.bits || left.isZero && right.isZero)

/-- Halve `number` `count` times and round to the nearest integer, a half going
to the even neighbour. -/
def shiftRightEven (number count : Nat) : Nat :=
  let quotient := number / Nat.pow 2 count
  let doubled := number % Nat.pow 2 count * 2
  if doubled < Nat.pow 2 count then quotient
  else if doubled = Nat.pow 2 count then quotient + quotient % 2
  else quotient + 1

/-- The bits of the double nearest to a positive integer below `2 ^ 1023`.  The
rounded significand may carry into the exponent, which is then the right one. -/
def magnitudeBits (number : Nat) : Nat :=
  let length := number.log2
  let rounded :=
    if length ≤ 52 then number * Nat.pow 2 (52 - length) else shiftRightEven number (length - 52)
  (length + 1023) * Nat.pow 2 52 + rounded - Nat.pow 2 52

/-- The double nearest to a 64-bit integer, a tie going to the even significand. -/
def ofInt64 (number : Int64) : Double :=
  let magnitude := number.toInt.natAbs
  if magnitude = 0 then ⟨0⟩
  else ⟨UInt64.ofNat ((if number.toInt < 0 then Nat.pow 2 63 else 0) + magnitudeBits magnitude)⟩

end Double

end SqlSelect
