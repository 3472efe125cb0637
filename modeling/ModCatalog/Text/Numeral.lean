/-!
# Numerals

Reading of unsigned decimal numerals with an upper limit, and hexadecimal text of fixed width.
-/

namespace ModCatalog.Text

/-- The largest unsigned number of 64 bits. -/
def maxWord64 : Nat := Nat.pow 2 64 - 1

def digitValue (c : Char) : Nat := c.toNat - 48

/-- The number that a list of decimal digits writes, most significant first. -/
def ofDigits (digits : List Char) : Nat :=
  digits.foldl (fun value digit => value * 10 + digitValue digit) 0

/-- The number written by at least one decimal digit, at most `limit`. -/
def readDigits? (limit : Nat) (digits : List Char) : Option Nat :=
  if digits.isEmpty || !digits.all Char.isDigit then none
  else if ofDigits digits ≤ limit then some (ofDigits digits) else none

/-- The number written by decimal digits after an optional plus sign, at most `limit`. -/
def readNumber? (limit : Nat) : List Char → Option Nat
  | '+' :: digits => readDigits? limit digits
  | digits => readDigits? limit digits

/-- A number that was read respects the limit. -/
theorem le_of_readDigits? {limit n : Nat} {digits : List Char}
    (h : readDigits? limit digits = some n) : n ≤ limit := by
  unfold readDigits? at h
  split at h
  · exact absurd h (by simp)
  · split at h
    · next hle =>
        rw [← Option.some.inj h]
        exact hle
    · exact absurd h (by simp)

/-- Put zeros in front of a text until it has `width` characters. -/
def padZeros (width : Nat) (text : List Char) : List Char :=
  List.replicate (width - text.length) '0' ++ text

theorem length_padZeros (width : Nat) (text : List Char) :
    (padZeros width text).length = max width text.length := by
  simp [padZeros]
  omega

/-- The lower-case hexadecimal digits of a number, at least `width` of them. -/
def hexDigits (width n : Nat) : List Char := padZeros width (Nat.toDigits 16 n)

/-- Hexadecimal text with the mark `0x`, at least `width` digits. -/
def hexText (width n : Nat) : String := "0x" ++ String.ofList (hexDigits width n)

end ModCatalog.Text
