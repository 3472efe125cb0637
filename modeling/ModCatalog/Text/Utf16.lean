import ModCatalog.Text.Utf8

/-!
# UTF-16

The characters of a sequence of 16-bit code units, where a surrogate without its partner becomes a
replacement character.
-/

namespace ModCatalog.Text.Utf16

/-- Whether a unit opens a pair. -/
def isHigh (u : Nat) : Bool := 0xD800 ≤ u && u < 0xDC00

/-- Whether a unit closes a pair. -/
def isLow (u : Nat) : Bool := 0xDC00 ≤ u && u < 0xE000

def joinPair (high low : Nat) : Char :=
  Char.ofNat (0x10000 + (high - 0xD800) * 0x400 + (low - 0xDC00))

/-- The character of a unit that is not part of a pair. -/
def single (u : Nat) : Char := if isHigh u || isLow u then replacement else Char.ofNat u

/-- The characters of code units, with a replacement for every unpaired surrogate. -/
def decodeLossy : List Nat → List Char
  | [] => []
  | [u] => [single u]
  | u :: v :: rest =>
      if isHigh u && isLow v then joinPair u v :: decodeLossy rest
      else single u :: decodeLossy (v :: rest)

/-- A unit that is no surrogate decodes to itself, whatever follows. -/
theorem decodeLossy_cons_of_single {u : Nat} (h : isHigh u = false) (rest : List Nat) :
    decodeLossy (u :: rest) = single u :: decodeLossy rest := by
  cases rest with
  | nil => simp [decodeLossy]
  | cons v rest => simp [decodeLossy, h]

end ModCatalog.Text.Utf16
