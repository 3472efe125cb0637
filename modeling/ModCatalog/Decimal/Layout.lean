import ModCatalog.Decimal.Shortest

/-!
# Layout of decimals

The text of a floating-point number.  A layout says how shortest digits are arranged: with a point
among the digits, or in scientific form outside the range where that is readable.
-/

namespace ModCatalog.Decimal

/-- The decisions of one way of writing numbers. -/
structure Layout where
  /-- Which of two equally near shortest decimals is written. -/
  tie : Tie
  /-- Below this scientific exponent the scientific form is used. -/
  least : Int
  /-- What stands between the `e` and a nonnegative exponent. -/
  plus : String
deriving DecidableEq, Repr

/-- From this scientific exponent on the scientific form is used. -/
def firstScientific : Int := 16

namespace Layout

/-- The digits with a point, where `exponent` is the place of the last digit. -/
def positional (digits : List Char) (exponent : Int) : List Char :=
  if 0 ≤ exponent then digits ++ List.replicate exponent.toNat '0' ++ ['.', '0']
  else
    let places := (-exponent).toNat
    if places < digits.length then
      digits.take (digits.length - places) ++ '.' :: digits.drop (digits.length - places)
    else '0' :: '.' :: (List.replicate (places - digits.length) '0' ++ digits)

/-- The scientific form, where `exponent` is the place of the first digit. -/
def scientific (layout : Layout) (digits : List Char) (exponent : Int) : List Char :=
  let mantissa := match digits with
    | [] => []
    | [digit] => [digit]
    | digit :: rest => digit :: '.' :: rest
  let sign := if 0 ≤ exponent then layout.plus.toList else []
  mantissa ++ 'e' :: (sign ++ (toString exponent).toList)

/-- The text of a decimal. -/
def writeScientific (layout : Layout) (x : Scientific) : List Char :=
  let digits := Nat.toDigits 10 x.digits
  let first := x.exponent + digits.length - 1
  if layout.least ≤ first && first < firstScientific then positional digits x.exponent
  else layout.scientific digits first

/-- The text of a number of a format. -/
def writeMagnitude (layout : Layout) (f : Format) (x : Magnitude) : List Char :=
  if x.mantissa == 0 then ['0', '.', '0'] else layout.writeScientific (shortest layout.tie f x)

/-- The text of a floating-point value: no sign on what is not a number, and `inf` for
infinities. -/
def write (layout : Layout) (f : Format) : FloatValue → String
  | .nan => "NaN"
  | .infinite negative => if negative then "-inf" else "inf"
  | .finite negative x =>
      String.ofList ((if negative then ['-'] else []) ++ layout.writeMagnitude f x)

end Layout

end ModCatalog.Decimal
