import ModCatalog.ClassFile.Defect
import ModCatalog.Text.Utf16

/-!
# Modified UTF-8

The texts of a constant pool.  Each UTF-16 code unit is a sequence of its own of one, two or three
bytes, and the zero unit takes two.  Bytes that happen to be plain UTF-8 are read as such.
-/

namespace ModCatalog.ClassFile.ModifiedUtf8

open Text.Utf8 (isTail tailBits)

/-- The unit of a sequence of two bytes. -/
def unitOfTwo (lead second : UInt8) : Nat := (lead.toNat % 0x20) * 0x40 + tailBits second

/-- The unit of a sequence of three bytes. -/
def unitOfThree (lead second third : UInt8) : Nat :=
  ((lead.toNat % 0x10) * 0x40 + tailBits second) * 0x40 + tailBits third

/-- The code units of a sequence of encoded units. -/
def units : List UInt8 → Except Defect (List Nat)
  | [] => .ok []
  | lead :: rest =>
      if lead.toNat < 0x80 then (units rest).map (lead.toNat :: ·)
      else if lead.toNat / 0x20 = 6 then
        match rest with
        | b1 :: rest =>
            if isTail b1 then (units rest).map (unitOfTwo lead b1 :: ·)
            else .error .truncatedCharacter
        | [] => .error .truncatedCharacter
      else if lead.toNat / 0x10 = 14 then
        match rest with
        | b1 :: b2 :: rest =>
            if isTail b1 && isTail b2 then (units rest).map (unitOfThree lead b1 b2 :: ·)
            else .error .truncatedCharacter
        | _ => .error .truncatedCharacter
      else .error (.leadByte lead)

/-- The text of encoded units; an unpaired surrogate becomes a replacement character. -/
def decode (bytes : List UInt8) : Except Defect String :=
  match Text.Utf8.decode? bytes with
  | some text => .ok (String.ofList text)
  | none => (units bytes).map fun units => String.ofList (Text.Utf16.decodeLossy units)

end ModCatalog.ClassFile.ModifiedUtf8
