import MailRoom.Decimal.Binary64

/-! The shortest decimal that reads back as a given binary number, and its layout. -/
namespace MailRoom.Binary64

/-- The reals that round to a positive number, over one denominator. -/
structure Rounding where
  low : Nat
  value : Nat
  high : Nat
  denominator : Nat
  /-- The ends round to the number too. -/
  closed : Bool

/-- Half the gap on either side; below a power of two the gap is half as wide. -/
def rounding (mantissa : Nat) (exponent : Int) : Rounding :=
  let unit := Nat.pow 2 (exponent - 2).toNat
  let narrow := mantissa = leastMantissa ∧ exponent > minExponent
  { low := (4 * mantissa - if narrow then 1 else 2) * unit
    value := 4 * mantissa * unit
    high := (4 * mantissa + 2) * unit
    denominator := Nat.pow 2 (2 - exponent).toNat
    closed := mantissa % 2 = 0 }

namespace Rounding

/-- Whether `digits * 10 ^ power` rounds to the number. -/
def admits (interval : Rounding) (power : Int) (digits : Nat) : Bool :=
  let point := digits * Nat.pow 10 power.toNat * interval.denominator
  let down := Nat.pow 10 (-power).toNat
  if interval.closed then interval.low * down ≤ point && point ≤ interval.high * down
  else interval.low * down < point && point < interval.high * down

def leading (interval : Rounding) : Int :=
  let guess : Int := (Nat.toDigits 10 interval.value).length -
    (Nat.toDigits 10 interval.denominator).length
  if interval.denominator * Nat.pow 10 guess.toNat ≤
      interval.value * Nat.pow 10 (-guess).toNat then guess
  else guess - 1

/-- The value in units of `10 ^ power`, as a quotient. -/
def inUnits (interval : Rounding) (power : Int) : Nat × Nat :=
  (interval.value * Nat.pow 10 (-power).toNat, interval.denominator * Nat.pow 10 power.toNat)

/-- A final zero is no digit of its own: it moves into the exponent. -/
def withoutZero (digits : Nat) (power : Int) : Nat × Int :=
  if digits % 10 = 0 then (digits / 10, power + 1) else (digits, power)

/-- The nearest decimal with this many digits that rounds to the number, if there is one. -/
def atLength? (interval : Rounding) (length : Nat) : Option (Nat × Int) :=
  let power := interval.leading + 1 - length
  let (top, bottom) := interval.inUnits power
  let below := top / bottom
  let nearest := roundQuotient top bottom
  let other := if nearest = below then below + 1 else below
  if interval.admits power nearest then some (withoutZero nearest power)
  else if interval.admits power other then some (withoutZero other power)
  else none

/-- The decimal with the fewest digits that rounds to the number; seventeen always suffice. -/
def shortest (interval : Rounding) : Nat × Int :=
  ((List.range 16).findSome? fun index => interval.atLength? (index + 1)).getD <|
    let power := interval.leading - 16
    let (top, bottom) := interval.inUnits power
    (roundQuotient top bottom, power)

end Rounding

private def zeroes (count : Nat) : String := String.ofList (List.replicate count '0')

/-- Positional from `0.0001` up to sixteen digits before the point, otherwise with an exponent of
at least two digits; a point always shows in positional notation. -/
def layout (digits : Nat) (power : Int) : String :=
  let shown := Nat.toDigits 10 digits
  let exponent := shown.length - 1 + power
  if -4 ≤ exponent ∧ exponent < 16 then
    if 0 ≤ power then String.ofList shown ++ zeroes power.toNat ++ ".0"
    else if 0 ≤ exponent then
      let (whole, part) := shown.splitAt (exponent.toNat + 1)
      String.ofList whole ++ "." ++ String.ofList part
    else "0." ++ zeroes (-exponent - 1).toNat ++ String.ofList shown
  else
    let part := shown.drop 1
    let size := toString exponent.natAbs
    String.ofList (shown.take 1) ++ (if part.isEmpty then "" else "." ++ String.ofList part) ++
      "e" ++ (if exponent < 0 then "-" else "+") ++ zeroes (2 - size.length) ++ size

/-- The shortest text that reads back as the number. -/
def text : Binary64 → String
  | undefined => "nan"
  | infinite negative => if negative then "-inf" else "inf"
  | finite negative mantissa exponent =>
    (if negative then "-" else "") ++
      if mantissa = 0 then "0.0"
      else
        let (digits, power) := (rounding mantissa exponent).shortest
        layout digits power

end MailRoom.Binary64
