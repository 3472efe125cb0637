/-!
# Binary floating point

The finite values of a binary floating-point format as exact numbers `mantissa * 2 ^ exponent`, read
from bit patterns and obtained from fractions by rounding to nearest.
-/

namespace ModCatalog.Decimal

/-- A binary floating-point format: the bits of a mantissa, the leading one included, and of an
exponent. -/
structure Format where
  precision : Nat
  exponentWidth : Nat
deriving DecidableEq, Repr

namespace Format

/-- The format of 32 bits. -/
def single : Format := ⟨24, 8⟩

def double : Format := ⟨53, 11⟩

/-- The exponent of the subnormal numbers. -/
def minExponent (f : Format) : Int := 3 - Int.pow 2 (f.exponentWidth - 1) - f.precision

/-- The exponent of the largest numbers. -/
def maxExponent (f : Format) : Int := Int.pow 2 (f.exponentWidth - 1) - f.precision

end Format

/-- The number `mantissa * 2 ^ exponent`. -/
structure Magnitude where
  mantissa : Nat
  exponent : Int
deriving DecidableEq, Repr

/-- What a bit pattern stands for. -/
inductive FloatValue
  | nan
  | infinite (negative : Bool)
  | finite (negative : Bool) (size : Magnitude)
deriving DecidableEq, Repr

namespace Format

/-- The value of a bit pattern. -/
def decode (f : Format) (bits : Nat) : FloatValue :=
  let fractionWidth := f.precision - 1
  let fraction := bits % Nat.pow 2 fractionWidth
  let biased := bits / Nat.pow 2 fractionWidth % Nat.pow 2 f.exponentWidth
  let negative := bits / Nat.pow 2 (fractionWidth + f.exponentWidth) % 2 == 1
  if biased == Nat.pow 2 f.exponentWidth - 1 then
    if fraction == 0 then .infinite negative else .nan
  else if biased == 0 then .finite negative ⟨fraction, f.minExponent⟩
  else .finite negative ⟨Nat.pow 2 fractionWidth + fraction, f.minExponent + (biased - 1 : Nat)⟩

/-- The integer nearest to `num / den`; of two equally near the even one. -/
def roundQuotient (num den : Nat) : Nat :=
  let quotient := num / den
  let twice := 2 * (num % den)
  if twice > den || (twice == den && quotient % 2 == 1) then quotient + 1 else quotient

/-- The integer part of `num / den / 2 ^ exponent`. -/
def floorScaled (num den : Nat) (exponent : Int) : Nat :=
  (num * Nat.pow 2 (-exponent).toNat) / (den * Nat.pow 2 exponent.toNat)

/--
The number of the format nearest to `num / den`, with ties to the even mantissa; `none` if the
number is beyond the largest of the format.
-/
def nearest? (f : Format) (num den : Nat) : Option Magnitude :=
  if num == 0 then some ⟨0, f.minExponent⟩ else
  let rough : Int := (Nat.log2 num : Int) - Nat.log2 den - f.precision
  let fine := if Nat.pow 2 f.precision ≤ floorScaled num den rough then rough + 1 else rough
  let exponent := max fine f.minExponent
  let mantissa := roundQuotient (num * Nat.pow 2 (-exponent).toNat) (den * Nat.pow 2 exponent.toNat)
  let rounded : Magnitude :=
    if mantissa == Nat.pow 2 f.precision then ⟨Nat.pow 2 (f.precision - 1), exponent + 1⟩
    else ⟨mantissa, exponent⟩
  if f.maxExponent < rounded.exponent then none else some rounded

/-- The number of the format nearest to a product; `none` if that is too large. -/
def product? (f : Format) (a b : Magnitude) : Option Magnitude :=
  let exponent := a.exponent + b.exponent
  f.nearest? (a.mantissa * b.mantissa * Nat.pow 2 exponent.toNat) (Nat.pow 2 (-exponent).toNat)

/-- The number of the format nearest to a quotient; `none` if that is too large. -/
def quotient? (f : Format) (a b : Magnitude) : Option Magnitude :=
  let exponent := a.exponent - b.exponent
  f.nearest? (a.mantissa * Nat.pow 2 exponent.toNat) (b.mantissa * Nat.pow 2 (-exponent).toNat)

/-- Powers of ten beyond this are beyond every number of the formats used here. -/
def decimalReach : Int := 400

/-- The number of the format nearest to `digits * 10 ^ exponent`; `none` if that is too large. -/
def nearestDecimal? (f : Format) (digits : Nat) (exponent : Int) : Option Magnitude :=
  let first : Int := exponent + (Nat.toDigits 10 digits).length
  if digits = 0 ∨ first < -decimalReach then some ⟨0, f.minExponent⟩
  else if decimalReach < first then none
  else f.nearest? (digits * Nat.pow 10 exponent.toNat) (Nat.pow 10 (-exponent).toNat)

end Format

end ModCatalog.Decimal
