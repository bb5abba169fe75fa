import SqlSelect.Double

/-!
# Shortest decimal text of a binary64 number

The text of a finite double has the fewest significant digits among the decimals
that read back as that double, and of those the digits nearest to it.  It is
always positional: there is no exponent, and a whole number has no point.
-/

namespace SqlSelect.Double

/-- The reals that round to a positive double, over the common denominator
`scale`.  The ends belong to it exactly when the significand is even. -/
structure RoundingInterval where
  low : Nat
  value : Nat
  high : Nat
  scale : Nat
  closed : Bool

/-- The rounding interval of the magnitude of a finite nonzero double.  The gap
below a power of two is half as wide as the gap above it. -/
def roundingInterval (number : Double) : RoundingInterval :=
  let quarters := 4 * number.significand
  let below := if number.fraction = 0 ∧ 1 < number.exponentField then 1 else 2
  let power := number.exponent - 2
  { low := (quarters - below) * Nat.pow 2 power.toNat
    value := quarters * Nat.pow 2 power.toNat
    high := (quarters + 2) * Nat.pow 2 power.toNat
    scale := Nat.pow 2 (-power).toNat
    closed := number.significand % 2 == 0 }

namespace RoundingInterval

/-- The decimal `digits * 10 ^ power` lies in the interval. -/
def contains (interval : RoundingInterval) (digits : Nat) (power : Int) : Bool :=
  let point := digits * Nat.pow 10 power.toNat * interval.scale
  let low := interval.low * Nat.pow 10 (-power).toNat
  let high := interval.high * Nat.pow 10 (-power).toNat
  if interval.closed then low ≤ point && point ≤ high else low < point && point < high

/-- The multiple of `10 ^ power` in the interval that is nearest to its value, if
there is one.  Of two equally near multiples it is the larger. -/
def nearest? (interval : RoundingInterval) (power : Int) : Option Nat :=
  let unit := Nat.pow 10 power.toNat * interval.scale
  let value := interval.value * Nat.pow 10 (-power).toNat
  let floor := value / unit
  match interval.contains floor power, interval.contains (floor + 1) power with
  | true, true => some (if 2 * (value % unit) < unit then floor else floor + 1)
  | true, false => some floor
  | false, true => some (floor + 1)
  | false, false => none

/-- Search the decimal grids from `10 ^ power` downwards, coarsest first. -/
def search (interval : RoundingInterval) : Nat → Int → Nat × Int
  | 0, power => (interval.value / interval.scale, power)
  | steps + 1, power =>
    match interval.nearest? power with
    | some digits => (digits, power)
    | none => interval.search steps (power - 1)

/-- A power of ten above the interval, at most four grids above its value. -/
def topPower (interval : RoundingInterval) : Int :=
  ((interval.value.log2 : Int) - interval.scale.log2 + 2) * 30103 / 100000 + 2

/-- The shortest decimal in the interval, as digits and a power of ten.  Seventeen
significant digits always suffice. -/
def shortest (interval : RoundingInterval) : Nat × Int :=
  interval.search 24 interval.topPower

end RoundingInterval

/-- Write `digits * 10 ^ power` without an exponent. -/
def positional (digits : Nat) (power : Int) : String :=
  let text := digits.repr
  if 0 ≤ power then text ++ String.ofList (List.replicate power.toNat '0')
  else
    let places := (-power).toNat
    let padded := List.replicate (places + 1 - text.length) '0' ++ text.toList
    let split := padded.length - places
    String.ofList (padded.take split) ++ "." ++ String.ofList (padded.drop split)

/-- The text of the absolute value of a number. -/
def magnitudeText (number : Double) : String :=
  if number.isFinite then
    if number.isZero then "0"
    else
      let (digits, power) := number.roundingInterval.shortest
      positional digits power
  else "inf"

/-- The text of a number; the sign is written also for negative zero. -/
def text (number : Double) : String :=
  if number.isNan then "NaN"
  else if number.isNegative then "-" ++ number.magnitudeText
  else number.magnitudeText

end SqlSelect.Double
