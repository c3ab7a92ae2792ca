/-!
# Decimals as doubles

A number that is written with a point or an exponent stands for the nearest binary floating point
number of double precision; halfway between two, for the one whose last bit is zero. `Double.nearest`
finds it in exact arithmetic. Its integral value decides where such a number may stand for an
integer (`Double.integer?`).
-/

namespace Crowsfoot.Json

/-- The magnitude of a double: `significand · 2 ^ exponent`, or past all numbers. -/
inductive Double where
  | finite (significand : Nat) (exponent : Int)
  | infinite
  deriving Repr, DecidableEq

namespace Double

/-- The bits of a significand. -/
def precision : Nat := 53

/-- The exponent of the smallest numbers. -/
def leastExponent : Int := -1074

/-- The exponent of the largest numbers. -/
def greatestExponent : Int := 971

/-- The integer nearest to a quotient; of two, the even one. -/
def roundedQuotient (num den : Nat) : Nat :=
  let q := num / den
  let twice := 2 * (num % den)
  if twice > den || (twice == den && q % 2 == 1) then q + 1 else q

/-- A fraction over a power of two. -/
def scaled (num den : Nat) (exponent : Int) : Nat × Nat :=
  (num <<< (-exponent).toNat, den <<< exponent.toNat)

/-- The exponent at which the significand of a fraction has its full number of bits, but at least
the least one. -/
def exponentOf (num den : Nat) : Int :=
  let guess : Int := num.log2 - den.log2 - (precision - 1)
  let (n, d) := scaled num den guess
  max leastExponent (if (n / d).log2 < precision - 1 then guess - 1 else guess)

/-- The double nearest to a fraction. -/
def ofFraction (num den : Nat) : Double :=
  let exponent := exponentOf num den
  let (n, d) := scaled num den exponent
  let significand := roundedQuotient n d
  if exponent > greatestExponent
      || (exponent == greatestExponent && significand.log2 ≥ precision) then .infinite
  else .finite significand exponent

/-- The double nearest to `mantissa · 10 ^ exponent`. -/
def nearest (mantissa : Nat) (exponent : Int) : Double :=
  let size : Int := (Nat.toDigits 10 mantissa).length + exponent
  if mantissa = 0 || size < -330 then .finite 0 0
  else if size > 310 then .infinite
  else ofFraction (mantissa * Nat.pow 10 exponent.toNat) (Nat.pow 10 (-exponent).toNat)

/-- The integer that a double is. -/
def integer? : Double → Option Nat
  | finite significand exponent =>
    let (n, d) := (significand <<< exponent.toNat, 1 <<< (-exponent).toNat)
    if n % d = 0 then some (n / d) else none
  | infinite => none

end Double

end Crowsfoot.Json
