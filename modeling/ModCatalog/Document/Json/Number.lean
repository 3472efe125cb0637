import ModCatalog.Document.Json.Value
import ModCatalog.Document.Json.Written
import ModCatalog.Text.Numeral

/-!
# Values of written numbers

A number without fraction and exponent that fits 64 bits is an integer.  Every other number is a
double that is computed from the digits in few steps: the leading digits that fit 64 bits are
rounded to a double, and that is multiplied or divided by a power of ten, with one more rounding for
each step.  So the double is near to what is written but need not be the nearest one.
-/

namespace ModCatalog.Document.JsonNumeral

open Decimal

/-- Take digits into a number as long as it fits 64 bits; gives the number and the digits left. -/
def takeDigits (n : Nat) : List Nat → Nat × List Nat
  | [] => (n, [])
  | digit :: rest =>
      if n * 10 + digit ≤ Text.maxWord64 then takeDigits (n * 10 + digit) rest
      else (n, digit :: rest)

/-- Written exponents above this are all alike. -/
def exponentLimit : Nat := Nat.pow 2 31

def exponentSize (digits : List Nat) : Nat :=
  digits.foldl (fun n digit => min (n * 10 + digit) exponentLimit) 0

/-- The power of ten that the exponent writes. -/
def power (n : JsonNumeral) : Int :=
  match n.exponent with
  | none => 0
  | some (negative, digits) =>
      if negative then -(exponentSize digits : Int) else exponentSize digits

/--
The leading digits that fit 64 bits, with the power of ten that they are multiplied by.  Digits of
the whole part that do not fit count only by their number.  Those of the fraction do not count, but
the fraction may still add digits where the whole part had none to add.
-/
def scaled (n : JsonNumeral) : Nat × Int :=
  let whole := takeDigits 0 n.whole
  let fraction := n.fraction.getD []
  let all := takeDigits whole.1 fraction
  (all.1, n.power + whole.2.length - (fraction.length - all.2.length : Nat))

/-- The integer that is written, if it is written as one and fits 64 bits; a negative zero is
none. -/
def integer? (n : JsonNumeral) : Option Int :=
  let (size, left) := takeDigits 0 n.whole
  if n.fraction.isSome || n.exponent.isSome || !left.isEmpty then none
  else if n.negative then if 0 < size ∧ size ≤ Nat.pow 2 63 then some (-size) else none
  else some size

/-- The largest power of ten that is a double. -/
def largestPower : Nat := 308

/-- The double nearest to a power of ten. -/
def powerOfTen? (exponent : Nat) : Option Magnitude :=
  if exponent ≤ largestPower then Format.double.nearest? (Nat.pow 10 exponent) 1 else none

/-- A double times a power of ten; `none` if that is too large. -/
def timesPower? (size : Magnitude) (exponent : Nat) : Option Magnitude :=
  if size.mantissa = 0 then some size
  else (powerOfTen? exponent).bind (Format.double.product? size)

/-- A double divided by a power of ten, by the largest one as long as more is to be divided by. -/
def overPower? (size : Magnitude) (exponent : Nat) : Option Magnitude :=
  if size.mantissa = 0 then some size
  else if exponent ≤ largestPower then
    (powerOfTen? exponent).bind (Format.double.quotient? size)
  else do
    let smaller ← (powerOfTen? largestPower).bind (Format.double.quotient? size)
    overPower? smaller (exponent - largestPower)
termination_by exponent
decreasing_by
  simp only [largestPower] at *
  omega

/-- The double of a number, if the number is not too large. -/
def double? (n : JsonNumeral) : Option JsonNumber := do
  let (digits, exponent) := n.scaled
  let size ← Format.double.nearest? digits 1
  let size ← if 0 ≤ exponent then timesPower? size exponent.toNat
    else overPower? size (-exponent).toNat
  return .double n.negative size

def value? (n : JsonNumeral) : Option JsonNumber :=
  match n.integer? with
  | some value => some (.integer value)
  | none => n.double?

end ModCatalog.Document.JsonNumeral
