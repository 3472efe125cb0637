/-!
# Base64

Bytes as text: three bytes are four characters of an alphabet of 64, and equals signs fill up the
last group.
-/

namespace ModCatalog.Text.Base64

/-- The characters by their values. -/
def alphabet : Array Char :=
  "ABCDEFGHIJKLMNOPQRSTUVWXYZabcdefghijklmnopqrstuvwxyz0123456789+/".toList.toArray

/-- The character that fills up the last group. -/
def filler : Char := '='

def charOf (value : Nat) : Char := alphabet.getD value filler

/-- The value of a character; one that is not in the alphabet counts as zero. -/
def valueOf (c : Char) : Nat :=
  if 'A' ≤ c && c ≤ 'Z' then c.toNat - 65
  else if 'a' ≤ c && c ≤ 'z' then c.toNat - 71
  else if '0' ≤ c && c ≤ '9' then c.toNat + 4
  else if c = '+' then 62
  else if c = '/' then 63
  else 0

/-- The first `count` of the four characters of a word of 24 bits. -/
def group (word count : Nat) : List Char :=
  [word >>> 18, word >>> 12, word >>> 6, word].take count |>.map fun n => charOf (n % 64)

/-- The text of bytes. -/
def encode : List UInt8 → List Char
  | [] => []
  | [a] => group (a.toNat <<< 16) 2 ++ [filler, filler]
  | [a, b] => group (a.toNat <<< 16 + b.toNat <<< 8) 3 ++ [filler]
  | a :: b :: c :: rest =>
      group (a.toNat <<< 16 + b.toNat <<< 8 + c.toNat) 4 ++ encode rest

/-- The first `count` of the three bytes of a word of 24 bits. -/
def bytes (word count : Nat) : List UInt8 :=
  [word >>> 16, word >>> 8, word].take count |>.map UInt8.ofNat

/-- The bytes of a text; characters after the last full group are left out. -/
def decode : List Char → List UInt8
  | a :: b :: c :: d :: rest =>
      let word := ((valueOf a * 64 + valueOf b) * 64 + valueOf c) * 64 + valueOf d
      let count := if c = filler then 1 else if d = filler then 2 else 3
      bytes word count ++ decode rest
  | _ => []

end ModCatalog.Text.Base64
