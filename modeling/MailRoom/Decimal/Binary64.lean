/-! Numbers with 53 binary digits, and the nearest of them to a decimal. All of it is exact
arithmetic on natural numbers. -/
namespace MailRoom

/-- `mantissa * 2 ^ exponent` up to its sign, an infinity, or undefined. -/
inductive Binary64 where
  | finite (negative : Bool) (mantissa : Nat) (exponent : Int)
  | infinite (negative : Bool)
  | undefined
  deriving DecidableEq

namespace Binary64

def leastMantissa : Nat := 0x10000000000000

def minExponent : Int := -1074
def maxExponent : Int := 971

/-- The nearest natural number to a quotient; a half goes to the even neighbour. -/
def roundQuotient (numerator denominator : Nat) : Nat :=
  let quotient := numerator / denominator
  let twice := 2 * (numerator % denominator)
  if twice < denominator ∨ (twice = denominator ∧ quotient % 2 = 0) then quotient else quotient + 1

def rescale (numerator denominator : Nat) (exponent : Int) : Nat × Nat :=
  (numerator * Nat.pow 2 (-exponent).toNat, denominator * Nat.pow 2 exponent.toNat)

/-- The nearest number to a positive quotient. -/
def ofQuotient (negative : Bool) (numerator denominator : Nat) : Binary64 :=
  let upper : Int := numerator.log2 - denominator.log2 - 52
  let (top, bottom) := rescale numerator denominator upper
  let exponent := max minExponent (if top / bottom < leastMantissa then upper - 1 else upper)
  let (top, bottom) := rescale numerator denominator exponent
  let mantissa := roundQuotient top bottom
  let (mantissa, exponent) :=
    if mantissa = 2 * leastMantissa then (leastMantissa, exponent + 1) else (mantissa, exponent)
  if exponent > maxExponent then infinite negative else finite negative mantissa exponent

/-- The nearest number to `digits * 10 ^ power`. Far outside the range the answer is known
without the powers of ten. -/
def ofDecimal (negative : Bool) (digits : Nat) (power : Int) : Binary64 :=
  let magnitude : Int := (Nat.toDigits 10 digits).length + power
  if digits = 0 ∨ magnitude < -330 then finite negative 0 minExponent
  else if magnitude > 310 then infinite negative
  else ofQuotient negative (digits * Nat.pow 10 power.toNat) (Nat.pow 10 (-power).toNat)

end Binary64

end MailRoom
