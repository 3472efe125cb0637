import ModCatalog.Decimal.Binary

/-!
# Shortest decimal digits

The fewest decimal digits that read back to a binary floating-point number.  Every number of a
format owns the interval of reals that round to it.  The digits come from the coarsest decimal grid
that has a point in that interval, so no shorter decimal reads back.
-/

namespace ModCatalog.Decimal

/-- Which of two equally near decimals is taken. -/
inductive Tie
  | up
  | toEven
deriving DecidableEq, Repr

/-- The number `digits * 10 ^ exponent`. -/
structure Scientific where
  digits : Nat
  exponent : Int
deriving DecidableEq, Repr

/-- The order of `a * 10 ^ p` and `b * 2 ^ q`. -/
def compareScaled (a : Nat) (p : Int) (b : Nat) (q : Int) : Ordering :=
  compare (a * Nat.pow 10 p.toNat * Nat.pow 2 (-q).toNat)
    (b * Nat.pow 2 q.toNat * Nat.pow 10 (-p).toNat)

/-- The reals that round to one number, in units of `2 ^ exponent`; the ends belong to it if
`closed`. -/
structure RoundingInterval where
  low : Nat
  value : Nat
  high : Nat
  exponent : Int
  closed : Bool
deriving DecidableEq, Repr

namespace RoundingInterval

/-- The interval of a number: half the gap to each neighbour, where the gap below a power of two
is the smaller. -/
def ofMagnitude (f : Format) (x : Magnitude) : RoundingInterval :=
  let below :=
    if x.mantissa == Nat.pow 2 (f.precision - 1) && f.minExponent < x.exponent then 1 else 2
  { low := 4 * x.mantissa - below
    value := 4 * x.mantissa
    high := 4 * x.mantissa + 2
    exponent := x.exponent - 2
    closed := x.mantissa % 2 == 0 }

/-- Whether `c * 10 ^ p` lies in the interval. -/
def contains (i : RoundingInterval) (c : Nat) (p : Int) : Bool :=
  let low := compareScaled c p i.low i.exponent
  let high := compareScaled c p i.high i.exponent
  (low == .gt || (i.closed && low == .eq)) && (high == .lt || (i.closed && high == .eq))

/-- The greatest `c` such that `c * 10 ^ p` is not above the value. -/
def floorOnGrid (i : RoundingInterval) (p : Int) : Nat :=
  (i.value * Nat.pow 2 i.exponent.toNat * Nat.pow 10 (-p).toNat) /
    (Nat.pow 10 p.toNat * Nat.pow 2 (-i.exponent).toNat)

/-- The point of the grid `10 ^ p` that lies in the interval and is nearest to the value. -/
def pointOnGrid? (tie : Tie) (i : RoundingInterval) (p : Int) : Option Nat :=
  let c := i.floorOnGrid p
  match i.contains c p, i.contains (c + 1) p with
  | false, false => none
  | true, false => some c
  | false, true => some (c + 1)
  | true, true =>
      match compareScaled (2 * c + 1) p (2 * i.value) i.exponent with
      | .gt => some c
      | .lt => some (c + 1)
      | .eq => if tie == .toEven && c % 2 == 0 then some c else some (c + 1)

/-- A point that was found lies in the interval. -/
theorem contains_of_pointOnGrid? {tie : Tie} {i : RoundingInterval} {p : Int} {c : Nat}
    (h : i.pointOnGrid? tie p = some c) : i.contains c p = true := by
  unfold pointOnGrid? at h
  dsimp only at h
  repeat' split at h
  all_goals cases h
  all_goals assumption

/-- The value written out in full. -/
def exact (i : RoundingInterval) : Scientific :=
  ⟨i.value * Nat.pow 2 i.exponent.toNat * Nat.pow 5 (-i.exponent).toNat, min i.exponent 0⟩

/-- The point on the coarsest of the next `grids` grids, from `10 ^ p` down; the value itself if
there is none. -/
def search (tie : Tie) (i : RoundingInterval) : Nat → Int → Scientific
  | 0, _ => i.exact
  | grids + 1, p =>
      match i.pointOnGrid? tie p with
      | some c => ⟨c, p⟩
      | none => i.search tie grids (p - 1)

end RoundingInterval

/-- The shortest decimal that reads back to a positive number of a format. -/
def shortest (tie : Tie) (f : Format) (x : Magnitude) : Scientific :=
  let i := RoundingInterval.ofMagnitude f x
  let whole := i.high * Nat.pow 2 i.exponent.toNat / Nat.pow 2 (-i.exponent).toNat
  let top := (Nat.toDigits 10 whole).length
  i.search tie (top + (-i.exponent).toNat + 1) top

end ModCatalog.Decimal
